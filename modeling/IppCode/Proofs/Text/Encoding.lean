import IppCode.Text.Encoding
import Mathlib.Data.List.Basic

/-!
# Decoding

Bytes are decoded to the text that they encode (`ofBytes?_eq_some`). A byte below 128 is a character
of its own (`utf8EncodeChar_of_mem`), so a line is text exactly if it is text with such a byte at
its end (`ofBytes?_concat`).
-/

namespace IppCode.Text

variable {encoded line : List UInt8} {text : String} {c : Char}

theorem toNat_ofNat_of_isValidChar {n : Nat} (scalar : n.isValidChar) :
    (Char.ofNat n).toNat = n := by
  rw [Char.ofNat, dif_pos scalar]
  rfl

theorem toByteArray_eq (text : String) : text.toByteArray = (bytes text).toByteArray := by
  rw [← String.ofList_toList (s := text), String.toByteArray_ofList, String.ofList_toList]
  rfl

theorem ofBytes?_eq_some : ofBytes? encoded = some text ↔ bytes text = encoded := by
  have array : (⟨encoded.toArray⟩ : ByteArray) = encoded.toByteArray := by
    apply ByteArray.ext
    rw [← Array.toList_inj, List.toList_data_toByteArray]
  rw [ofBytes?, array, String.fromUTF8?]
  constructor
  · intro decoded
    split at decoded
    · rename_i valid
      have same : text.toByteArray = encoded.toByteArray := by
        rw [← Option.some.inj decoded]
        rfl
      rw [toByteArray_eq] at same
      rw [← List.toList_data_toByteArray (l := bytes text), same, List.toList_data_toByteArray]
    · cases decoded
  · rintro rfl
    have valid : (bytes text).toByteArray.IsValidUTF8 := ⟨text.toList, rfl⟩
    rw [dif_pos valid, Option.some.injEq, ← String.toByteArray_inj, toByteArray_eq text]
    rfl

theorem bytes_push (text : String) (c : Char) :
    bytes (text.push c) = bytes text ++ String.utf8EncodeChar c := by
  rw [bytes, String.toList_push, List.flatMap_append, List.flatMap_singleton]
  rfl

theorem bytes_injective {other : String} (same : bytes text = bytes other) : text = other := by
  have decoded : ofBytes? (bytes other) = some text := ofBytes?_eq_some.2 same
  exact Option.some.inj (decoded.symm.trans (ofBytes?_eq_some.2 rfl))

theorem utf8EncodeChar_of_mem {b : UInt8} (ascii : b < 128)
    (inside : b ∈ String.utf8EncodeChar c) : String.utf8EncodeChar c = [b] := by
  have small : b.toNat < 128 := ascii
  -- The bytes of a character that has several are all at least 128.
  have high {n width low : Nat} (some : 0 < width) (above : 128 ≤ low) (fits : low + width ≤ 256)
      (same : b = UInt8.ofNat (n % width + low)) : False := by
    have below := Nat.mod_lt n some
    rw [same, UInt8.toNat_ofNat'] at small
    omega
  have continued {n : Nat} (same : b = UInt8.ofNat (n % 64 + 128)) : False :=
    high (by omega) (by omega) (by omega) same
  unfold String.utf8EncodeChar at inside ⊢
  simp only at inside ⊢
  split at inside
  · rename_i single
    rw [if_pos single, List.mem_singleton.1 inside]
  · exfalso
    split at inside
    · simp only [List.mem_cons, List.not_mem_nil, or_false] at inside
      rcases inside with lead | last
      · exact high (by omega) (by omega) (by omega) lead
      · exact continued last
    · split at inside
      · simp only [List.mem_cons, List.not_mem_nil, or_false] at inside
        rcases inside with lead | second | last
        · exact high (by omega) (by omega) (by omega) lead
        · exact continued second
        · exact continued last
      · simp only [List.mem_cons, List.not_mem_nil, or_false] at inside
        rcases inside with lead | second | third | last
        · exact high (by omega) (by omega) (by omega) lead
        · exact continued second
        · exact continued third
        · exact continued last

theorem utf8EncodeChar_of_getLast? {b : UInt8} (ascii : b < 128)
    (last : (String.utf8EncodeChar c).getLast? = some b) : String.utf8EncodeChar c = [b] :=
  utf8EncodeChar_of_mem ascii (List.mem_of_getLast? last)

theorem eq_of_mem_utf8EncodeChar {d : Char} {b : UInt8} (single : String.utf8EncodeChar c = [b])
    (ascii : b < 128) (inside : b ∈ String.utf8EncodeChar d) : d = c := by
  have same : bytes (String.singleton d) = bytes (String.singleton c) := by
    simp [bytes, utf8EncodeChar_of_mem ascii inside, single]
  simpa using bytes_injective same

theorem ofBytes?_concat {b : UInt8} (single : String.utf8EncodeChar c = [b]) (ascii : b < 128) :
    ofBytes? (line ++ [b]) = (ofBytes? line).map (·.push c) := by
  ext text
  rw [ofBytes?_eq_some, Option.map_eq_some_iff]
  constructor
  · intro encoded
    rcases List.eq_nil_or_concat text.toList with empty | ⟨front, last, split⟩
    · simp [bytes, empty] at encoded
    · have split : text = (String.ofList front).push last := by
        rw [← String.toList_inj, String.toList_push, String.toList_ofList, split,
          List.concat_eq_append]
      have whole : bytes (String.ofList front) ++ String.utf8EncodeChar last = line ++ [b] := by
        rw [← bytes_push, ← split, encoded]
      have ends : (String.utf8EncodeChar last).getLast? = some b := by
        rw [← List.getLast?_append_of_ne_nil _ String.utf8EncodeChar_ne_nil, whole,
          List.getLast?_concat]
      rw [utf8EncodeChar_of_getLast? ascii ends] at whole
      have front := List.append_cancel_right whole
      refine ⟨_, ofBytes?_eq_some.2 front, bytes_injective ?_⟩
      rw [bytes_push, single, front, encoded]
  · rintro ⟨front, decoded, rfl⟩
    rw [bytes_push, ofBytes?_eq_some.1 decoded, single]

end IppCode.Text
