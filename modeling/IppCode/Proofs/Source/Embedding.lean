import IppCode.Proofs.Literal
import IppCode.Proofs.Source.RoundTrip

/-!
# Values in source texts

Escapes stand for the blanks up to the space, but not for the others, from U+0085 to U+3000. A value
can be written into a program and loaded again just if it has none of those
(`load_render_pushing_iff`).
-/

namespace IppCode

open Text

variable {v : Value} {c : Char} {text : List Char}

namespace Text.Escape

theorem mem_encode_of_not_needed (inside : c ∈ text) (kept : needed c = false) :
    c ∈ encode text :=
  List.mem_flatMap.2 ⟨c, inside, by simp [encodeChar, kept]⟩

theorem blank_of_mem_encode (inside : c ∈ encode text) (blank : isBlank c = true) :
    c ∈ text ∧ needed c = false := by
  obtain ⟨d, listed, written⟩ := List.mem_flatMap.1 inside
  unfold encodeChar at written
  split at written
  · rcases List.mem_cons.1 written with rfl | digit
    · cases blank
    · rw [isBlank_of_isDigit (isDigit_of_mem_threeDigits digit)] at blank
      cases blank
  · rename_i kept
    obtain rfl := List.mem_singleton.1 written
    exact ⟨listed, Bool.not_eq_true _ ▸ kept⟩

theorem needed_of_blank (blank : isBlank c = true) : needed c = true ↔ c.toNat ≤ 32 := by
  have comment : c ≠ '#' := by
    rintro rfl
    cases blank
  have backslash : c ≠ '\\' := by
    rintro rfl
    cases blank
  simp [needed, comment, backslash]

theorem unbroken_encode_iff :
    Unbroken (encode text) ↔ ∀ c ∈ text, isBlank c = true → c.toNat ≤ 32 := by
  constructor
  · intro unbroken c inside blank
    by_contra high
    have kept : needed c = false := by
      rw [← Bool.not_eq_true, needed_of_blank blank]
      exact high
    rw [unbroken c (mem_encode_of_not_needed inside kept)] at blank
    cases blank
  · intro low c inside
    by_contra blank
    rw [Bool.not_eq_false] at blank
    obtain ⟨listed, kept⟩ := blank_of_mem_encode inside blank
    rw [(needed_of_blank blank).2 (low c listed blank)] at kept
    cases kept

end Text.Escape

/-- Every blank of a string is one that escapes stand for. -/
def Value.Embeddable : Value → Prop
  | .string s => ∀ c ∈ s.toList, isBlank c = true → c.toNat ≤ 32
  | _ => True

theorem Value.unbroken_sourceText_iff : Unbroken v.sourceText.toList ↔ v.Embeddable := by
  have plain {v : Value} (other : ∀ s, v ≠ .string s) : Unbroken v.display.toList :=
    (Value.plain_display other).unblank
  cases v with
  | int n => exact iff_of_true (plain (by simp)) trivial
  | float x => exact iff_of_true (plain (by simp)) trivial
  | bool b => exact iff_of_true (plain (by simp)) trivial
  | string s =>
    rw [Value.sourceText, String.toList_ofList]
    exact Escape.unbroken_encode_iff
  | nil => exact iff_of_true (by decide) trivial

theorem writable_ofValue_iff : (Argument.literal (Literal.ofValue v)).Writable ↔ v.Embeddable := by
  have bare : '#' ∉ v.sourceText.toList := fun inside => (Value.of_mem_sourceText inside).2 rfl
  rw [← Value.unbroken_sourceText_iff]
  exact and_iff_left ⟨bare, Value.sourceText_of_nil⟩

namespace Source

def pushing (v : Value) : Program := ⟨#[⟨.push, 1, [.literal (.ofValue v)]⟩]⟩

theorem loadable_pushing_iff : (pushing v).Loadable ↔ v.Embeddable := by
  rw [← writable_ofValue_iff]
  constructor
  · intro loadable
    exact (loadable.writable ⟨.push, 1, [.literal (.ofValue v)]⟩ (by simp [pushing])).arguments _
      List.mem_cons_self
  · intro writable
    refine ⟨fun k i found => ?_, fun i listed => ?_⟩
    · obtain ⟨rfl, rfl⟩ : k = 0 ∧ i = ⟨.push, 1, [.literal (.ofValue v)]⟩ := by
        cases k <;> simp_all [pushing]
      rfl
    · obtain rfl : i = ⟨.push, 1, [.literal (.ofValue v)]⟩ := by simpa [pushing] using listed
      exact ⟨.cons rfl .nil, by simpa using writable⟩

/-- A program that pushes a value is loaded from its own source text just if every blank in the
value is escaped there. -/
theorem load_render_pushing_iff (v : Value) :
    load (render (pushing v)) = .ok (pushing v) ↔ v.Embeddable := by
  rw [← loadable_pushing_iff]
  exact ⟨loadable_of_load, load_render⟩

/-- U+0085 is blank and a control character, and stands for itself. -/
theorem load_render_pushing_next_line :
    (render (pushing (.string "a\u0085b")) = ".IPPcode22\nPUSHS string@a\u0085b\n") ∧
      load (render (pushing (.string "a\u0085b"))) = .error ⟨2, .unexpectedWord "b"⟩ := by
  constructor <;> rfl

end Source

end IppCode
