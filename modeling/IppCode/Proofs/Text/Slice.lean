import IppCode.Proofs.Text.Encoding

/-!
# Slices of a text

A text is cut at an offset in the bytes of its encoding, which must be the end of a character
(`splitAtByte?_eq_some`). The offset of a character that was searched for is one
(`exists_of_findByte?`).
-/

namespace IppCode.Text

variable {c : Char} {p : Char → Bool} {text before after : List Char} {n : Nat} {b : UInt8}

def byteLength (text : List Char) : Nat := (bytes (.ofList text)).length

@[simp] theorem byteLength_nil : byteLength [] = 0 := rfl

@[simp] theorem byteLength_append (before after : List Char) :
    byteLength (before ++ after) = byteLength before + byteLength after := by
  simp [byteLength, bytes]

@[simp] theorem byteLength_cons (c : Char) (text : List Char) :
    byteLength (c :: text) = c.utf8Size + byteLength text := by
  simp [byteLength, bytes]

/-- The characters before and after an offset in bytes. There are none if the offset lies inside a
character or behind the last one. -/
def splitAtByte? : Nat → List Char → Option (List Char × List Char)
  | 0, text => some ([], text)
  | _ + 1, [] => none
  | n + 1, c :: rest =>
    if c.utf8Size ≤ n + 1 then
      (splitAtByte? (n + 1 - c.utf8Size) rest).map fun (before, after) => (c :: before, after)
    else none

theorem splitAtByte?_append (before after : List Char) :
    splitAtByte? (byteLength before) (before ++ after) = some (before, after) := by
  induction before with
  | nil => cases after <;> rfl
  | cons c before ih =>
    have positive := c.utf8Size_pos
    have offset : byteLength (c :: before) = c.utf8Size - 1 + byteLength before + 1 := by
      rw [byteLength_cons]
      omega
    have later : c.utf8Size - 1 + byteLength before + 1 - c.utf8Size = byteLength before := by omega
    rw [offset, List.cons_append, splitAtByte?, if_pos (by omega), later, ih]
    rfl

theorem splitAtByte?_eq_some :
    splitAtByte? n text = some (before, after) ↔
      text = before ++ after ∧ byteLength before = n := by
  constructor
  · intro cut
    fun_induction splitAtByte? n text generalizing before with
    | case1 text =>
      obtain ⟨rfl, rfl⟩ := Prod.mk.inj (Option.some.inj cut)
      exact ⟨rfl, rfl⟩
    | case2 => cases cut
    | case3 n c rest fits ih =>
      obtain ⟨⟨front, back⟩, later, same⟩ := Option.map_eq_some_iff.1 cut
      obtain ⟨rfl, rfl⟩ := Prod.mk.inj same
      obtain ⟨rfl, offset⟩ := ih later
      refine ⟨rfl, ?_⟩
      rw [byteLength_cons, offset, Nat.add_sub_cancel' fits]
    | case4 => cases cut
  · rintro ⟨rfl, rfl⟩
    exact splitAtByte?_append before after

def findByte? (p : Char → Bool) : List Char → Option Nat
  | [] => none
  | c :: rest => if p c then some 0 else (findByte? p rest).map (c.utf8Size + ·)

theorem findByte?_eq_none : findByte? p text = none ↔ ∀ c ∈ text, p c = false := by
  induction text with
  | nil => simp [findByte?]
  | cons c rest ih =>
    rw [findByte?, List.forall_mem_cons, ← ih]
    cases p c <;> simp

theorem exists_of_findByte? (found : findByte? p text = some n) : ∃ before c after,
    text = before ++ c :: after ∧ (∀ d ∈ before, p d = false) ∧ p c = true ∧
      byteLength before = n := by
  induction text generalizing n with
  | nil => cases found
  | cons c rest ih =>
    rw [findByte?] at found
    split at found
    · rename_i here
      obtain rfl := Option.some.inj found
      exact ⟨[], c, rest, rfl, by simp, here, rfl⟩
    · rename_i other
      obtain ⟨m, later, rfl⟩ := Option.map_eq_some_iff.1 found
      obtain ⟨before, d, after, rfl, clean, here, rfl⟩ := ih later
      exact ⟨c :: before, d, after, rfl, List.forall_mem_cons.2 ⟨by simpa using other, clean⟩, here,
        byteLength_cons c before⟩

theorem head?_bytes (text : List Char) (single : String.utf8EncodeChar c = [b]) (ascii : b < 128) :
    (bytes (.ofList text)).head? = some b ↔ text.head? = some c := by
  cases text with
  | nil => simp [bytes]
  | cons d text =>
    have first : (bytes (.ofList (d :: text))).head? = (String.utf8EncodeChar d).head? := by
      rw [bytes, String.toList_ofList, List.flatMap_cons,
        List.head?_append_of_ne_nil _ String.utf8EncodeChar_ne_nil]
    rw [first, List.head?_cons, Option.some.injEq]
    constructor
    · exact fun head => eq_of_mem_utf8EncodeChar single ascii (List.mem_of_mem_head? head)
    · rintro rfl
      rw [single, List.head?_cons]

end IppCode.Text
