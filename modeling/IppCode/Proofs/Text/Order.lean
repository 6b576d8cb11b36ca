import IppCode.Proofs.Text.Encoding

/-!
# The order of encodings

Texts that are compared byte by byte are ordered as their characters are (`bytes_lt_iff`). The first
bytes in which the encodings of two characters differ tell which character is less, whatever follows
them, and no encoding is the beginning of another.
-/

namespace IppCode.Text

variable {c d : Char} {x y : List UInt8} {s t : List Char}

theorem ofNat_cons_lt {a b : Nat} (byte : b < 256) (le : a ≤ b) (later : a = b → x < y) :
    UInt8.ofNat a :: x < UInt8.ofNat b :: y := by
  rw [List.cons_lt_cons_iff]
  rcases Nat.lt_or_eq_of_le le with less | same
  · left
    rw [UInt8.lt_iff_toNat_lt, UInt8.toNat_ofNat', UInt8.toNat_ofNat']
    omega
  · exact .inr ⟨congrArg _ same, later same⟩

theorem utf8EncodeChar_append_lt (less : c < d) :
    String.utf8EncodeChar c ++ x < String.utf8EncodeChar d ++ y := by
  have less : c.val.toNat < d.val.toNat := less
  have scalar : d.val.toNat < 1114112 := by
    rcases d.valid with low | high
    · omega
    · exact high.2
  unfold String.utf8EncodeChar
  generalize c.val.toNat = a at less
  generalize d.val.toNat = b at less scalar
  -- Longer encodings have greater leading bytes, and those of one length go digit by digit.
  simp only
  split
  · split
    · exact ofNat_cons_lt (by omega) (by omega) (by omega)
    split
    · exact ofNat_cons_lt (by omega) (by omega) (by omega)
    split
    · exact ofNat_cons_lt (by omega) (by omega) (by omega)
    · exact ofNat_cons_lt (by omega) (by omega) (by omega)
  rw [if_neg (by omega : ¬ b ≤ 127)]
  split
  · split
    · refine ofNat_cons_lt (by omega) (by omega) fun lead => ?_
      exact ofNat_cons_lt (by omega) (by omega) (by omega)
    split
    · exact ofNat_cons_lt (by omega) (by omega) (by omega)
    · exact ofNat_cons_lt (by omega) (by omega) (by omega)
  rw [if_neg (by omega : ¬ b ≤ 2047)]
  split
  · split
    · refine ofNat_cons_lt (by omega) (by omega) fun lead => ?_
      refine ofNat_cons_lt (by omega) (by omega) fun second => ?_
      exact ofNat_cons_lt (by omega) (by omega) (by omega)
    · exact ofNat_cons_lt (by omega) (by omega) (by omega)
  rw [if_neg (by omega : ¬ b ≤ 65535)]
  refine ofNat_cons_lt (by omega) (by omega) fun lead => ?_
  refine ofNat_cons_lt (by omega) (by omega) fun second => ?_
  refine ofNat_cons_lt (by omega) (by omega) fun third => ?_
  exact ofNat_cons_lt (by omega) (by omega) (by omega)

theorem flatMap_utf8EncodeChar_lt (less : s < t) :
    s.flatMap String.utf8EncodeChar < t.flatMap String.utf8EncodeChar := by
  induction s generalizing t with
  | nil =>
    cases t with
    | nil => exact absurd less (List.lt_irrefl [])
    | cons d t =>
      rw [List.flatMap_nil, List.flatMap_cons]
      cases encoded : String.utf8EncodeChar d with
      | nil => exact absurd encoded String.utf8EncodeChar_ne_nil
      | cons lead rest => exact List.nil_lt_cons _ _
  | cons c s ih =>
    cases t with
    | nil => exact absurd less (List.not_lt_nil _)
    | cons d t =>
      rw [List.flatMap_cons, List.flatMap_cons]
      rcases List.cons_lt_cons_iff.1 less with first | ⟨rfl, later⟩
      · exact utf8EncodeChar_append_lt first
      · exact List.append_left_lt (ih later)

theorem bytes_lt_iff {s t : String} : bytes s < bytes t ↔ s.toList < t.toList := by
  refine ⟨fun less => ?_, flatMap_utf8EncodeChar_lt⟩
  rcases Std.lt_trichotomy s.toList t.toList with below | same | above
  · exact below
  · rw [String.toList_inj.1 same] at less
    exact absurd less (List.lt_irrefl _)
  · exact absurd less (List.lt_asymm (flatMap_utf8EncodeChar_lt above))

theorem map_toNat_lt : s.map Char.toNat < t.map Char.toNat ↔ s < t := by
  induction s generalizing t with
  | nil => cases t <;> simp
  | cons c s ih =>
    cases t with
    | nil => simp
    | cons d t =>
      have less : c.toNat < d.toNat ↔ c < d := Iff.rfl
      rw [List.map_cons, List.map_cons, List.cons_lt_cons_iff, List.cons_lt_cons_iff, less,
        Char.toNat_inj, ih]

end IppCode.Text
