import IppCode.Proofs.Text.Encoding
import IppCode.Proofs.Text.Escape

/-!
# Pieces of escaped text

An escaped text is a sequence of pieces, each of which stands for one character. No text is cut into
pieces in two ways (`pieces_unique`). The decoder accepts just the texts that can be cut, and what
it makes of them is read off the pieces (`decoded_piecewise`).
-/

namespace IppCode.Text.Escape

/-- A character for itself, or a backslash and three digits. -/
inductive Piece where
  | plain (c : Char) (proper : c ≠ '\\')
  | escape (hundreds tens ones : Char)
      (digits : hundreds.isDigit = true ∧ tens.isDigit = true ∧ ones.isDigit = true)

namespace Piece

variable {p q : Piece} {rest rest' : List Char}

def text : Piece → List Char
  | plain c _ => [c]
  | escape hundreds tens ones _ => ['\\', hundreds, tens, ones]

def code : Piece → Nat
  | plain c _ => c.toNat
  | escape hundreds tens ones _ =>
    100 * digitValue hundreds + 10 * digitValue tens + digitValue ones

def char (p : Piece) : Char := Char.ofNat p.code

theorem code_escape_le (hundreds tens ones : Char)
    (digits : hundreds.isDigit = true ∧ tens.isDigit = true ∧ ones.isDigit = true) :
    (escape hundreds tens ones digits).code ≤ 999 := by
  have small {c : Char} (digit : c.isDigit = true) : digitValue c ≤ 9 := by
    have range := toNat_of_isDigit digit
    have zero : '0'.toNat = 48 := rfl
    rw [digitValue]
    omega
  have first := small digits.1
  have second := small digits.2.1
  have third := small digits.2.2
  rw [code]
  omega

theorem isValidChar_code (p : Piece) : p.code.isValidChar := by
  cases p with
  | plain c => exact c.valid
  | escape hundreds tens ones digits =>
    -- Three digits do not reach the surrogates.
    have below := code_escape_le hundreds tens ones digits
    exact .inl (by omega)

theorem toNat_char (p : Piece) : p.char.toNat = p.code :=
  toNat_ofNat_of_isValidChar p.isValidChar_code

theorem text_append_inj (same : p.text ++ rest = q.text ++ rest') : p = q ∧ rest = rest' := by
  cases p with
  | plain c proper =>
    cases q with
    | plain =>
      obtain ⟨rfl, tail⟩ := List.cons.inj same
      exact ⟨rfl, tail⟩
    | escape => exact absurd (List.cons.inj same).1 proper
  | escape =>
    cases q with
    | plain d proper => exact absurd (List.cons.inj same).1.symm proper
    | escape =>
      simp only [text, List.cons_append, List.nil_append, List.cons.injEq] at same
      obtain ⟨-, rfl, rfl, rfl, tail⟩ := same
      exact ⟨rfl, tail⟩

theorem decode?_text_append (p : Piece) (rest : List Char) :
    decode? (p.text ++ rest) = (decode? rest).map (p.char :: ·) := by
  cases p with
  | plain c proper =>
    have itself : (plain c proper).char = c := Char.ofNat_toNat c
    rw [itself]
    exact decode?_cons proper
  | escape hundreds tens ones digits =>
    have all : ∀ c ∈ [hundreds, tens, ones], c.isDigit = true := by simpa using digits
    refine decode?_escape ?_
    rw [toNat_char, natural?_of_digits (List.cons_ne_nil _ _) all]
    simp only [decimalValue, List.foldl_cons, List.foldl_nil, code, Option.some.injEq]
    omega

end Piece

variable {text s : List Char} {pieces others : List Piece}

theorem pieces_unique (same : pieces.flatMap Piece.text = others.flatMap Piece.text) :
    pieces = others := by
  induction pieces generalizing others with
  | nil =>
    cases others with
    | nil => rfl
    | cons q others => cases q <;> cases same
  | cons p pieces ih =>
    cases others with
    | nil => cases p <;> cases same
    | cons q others =>
      rw [List.flatMap_cons, List.flatMap_cons] at same
      obtain ⟨rfl, later⟩ := Piece.text_append_inj same
      rw [ih later]

theorem decode?_pieces (pieces : List Piece) :
    decode? (pieces.flatMap Piece.text) = some (pieces.map Piece.char) := by
  induction pieces with
  | nil => rfl
  | cons p pieces ih =>
    rw [List.flatMap_cons, Piece.decode?_text_append, ih, Option.map_some, List.map_cons]

theorem exists_pieces (decoded : decode? text = some s) :
    ∃ pieces : List Piece, pieces.flatMap Piece.text = text := by
  have front (p : Piece) {rest : List Char}
      (later : ∃ pieces : List Piece, pieces.flatMap Piece.text = rest) :
      ∃ pieces : List Piece, pieces.flatMap Piece.text = p.text ++ rest := by
    obtain ⟨pieces, rfl⟩ := later
    exact ⟨p :: pieces, List.flatMap_cons⟩
  fun_induction decode? text generalizing s with
  | case1 => exact ⟨[], rfl⟩
  | case2 a b c rest ih =>
    simp only [Option.bind_eq_bind, Option.bind_eq_some_iff] at decoded
    obtain ⟨code, read, tail, decoded, -⟩ := decoded
    have digits : a.isDigit = true ∧ b.isDigit = true ∧ c.isDigit = true := by
      by_contra other
      have none : natural? [a, b, c] = none := by simpa [natural?] using other
      cases none.symm.trans read
    exact front (.escape a b c digits) (ih decoded)
  | case3 => cases decoded
  | case4 c rest _ proper ih =>
    obtain ⟨tail, decoded, -⟩ := Option.map_eq_some_iff.1 decoded
    exact front (.plain c proper) (ih decoded)

/-- A text is decoded just if it can be cut into pieces, which is possible in one way only, to the
characters with the codes of the pieces. Texts are decoded one after the other, and encoding what
was decoded gives a text that stays as it is. -/
theorem decoded_piecewise (text : List Char) :
    ((decode? text).isSome ↔ ∃ pieces : List Piece, pieces.flatMap Piece.text = text) ∧
    (∀ pieces others : List Piece, pieces.flatMap Piece.text = text →
      others.flatMap Piece.text = text → pieces = others) ∧
    (∀ pieces : List Piece, pieces.flatMap Piece.text = text →
      ∃ s, decode? text = some s ∧ s.map Char.toNat = pieces.map Piece.code) ∧
    (∀ hundreds tens ones digits, (Piece.escape hundreds tens ones digits).code ≤ 999) ∧
    (∀ other s t, decode? text = some s → decode? other = some t →
      decode? (text ++ other) = some (s ++ t)) ∧
    ∀ s, decode? text = some s →
      decode? (encode s) = some s ∧ (decode? (encode s)).map encode = some (encode s) := by
  refine ⟨⟨?_, ?_⟩, ?_, ?_, Piece.code_escape_le, ?_, ?_⟩
  · intro accepted
    obtain ⟨s, decoded⟩ := Option.isSome_iff_exists.1 accepted
    exact exists_pieces decoded
  · rintro ⟨pieces, rfl⟩
    rw [decode?_pieces, Option.isSome_some]
  · intro pieces others cut cut'
    exact pieces_unique (cut.trans cut'.symm)
  · rintro pieces rfl
    refine ⟨_, decode?_pieces pieces, ?_⟩
    rw [List.map_map]
    exact List.map_congr_left fun p _ => p.toNat_char
  · intro other s t first second
    obtain ⟨pieces, rfl⟩ := exists_pieces first
    obtain ⟨others, rfl⟩ := exists_pieces second
    rw [decode?_pieces, Option.some.injEq] at first second
    rw [← List.flatMap_append, decode?_pieces, List.map_append, first, second]
  · intro s _
    rw [decode?_encode]
    exact ⟨rfl, rfl⟩

/-- A fourth digit does not belong to the escape, and the greatest code is a character. -/
theorem decoded_piecewise_followed :
    ∃ pieces : List Piece, pieces.flatMap Piece.text = "a\\0101".toList ∧
      (∃ s, decode? "a\\0101".toList = some s ∧ s.map Char.toNat = [97, 10, 49]) ∧
      decode? "a\\0101".toList = some "a\n1".toList ∧
      decode? "\\999".toList = some ['\u03e7'] ∧
      decode? ("a\\0101".toList ++ "\\999".toList) = some ("a\n1".toList ++ ['\u03e7']) ∧
      decode? (encode "a\n1".toList) = some "a\n1".toList := by
  have first : decode? "a\\0101".toList = some "a\n1".toList := by rfl
  have second : decode? "\\999".toList = some ['\u03e7'] := by rfl
  have cut : [Piece.plain 'a' (by decide), .escape '0' '1' '0' (by decide),
      .plain '1' (by decide)].flatMap Piece.text = "a\\0101".toList := by rfl
  obtain ⟨-, -, decoded, -, together, again⟩ := decoded_piecewise "a\\0101".toList
  exact ⟨_, cut, decoded _ cut, first, second, together _ _ _ first second, (again _ first).1⟩

end IppCode.Text.Escape
