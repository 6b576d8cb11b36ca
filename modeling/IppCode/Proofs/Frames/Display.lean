import IppCode.Frames
import IppCode.Proofs.Literal
import IppCode.Proofs.Source.Argument

/-!
# The texts of values and frames

Values are told apart by their kinds and source texts (`Value.typed_injective`), slots by the names
in front of them, and nothing that stands for the absence of a value or a frame looks like one. So
a frame is determined by its text (`Frame.display_injective`).
-/

namespace IppCode

open Text

variable {c mark : Char}

theorem map_inj_of_mem {α β : Type} {f : α → β} {xs ys : List α}
    (injective : ∀ x ∈ xs, ∀ y ∈ ys, f x = f y → x = y) (same : xs.map f = ys.map f) : xs = ys := by
  induction xs generalizing ys with
  | nil => exact (List.map_eq_nil_iff.1 same.symm).symm
  | cons x xs ih =>
    obtain ⟨y, ys, rfl, first, others⟩ := List.map_eq_cons_iff.1 same.symm
    rw [injective x List.mem_cons_self y List.mem_cons_self first.symm,
      ih (fun x listed y listed' => injective x (List.mem_cons_of_mem _ listed) y
        (List.mem_cons_of_mem _ listed')) others.symm]

theorem Value.typed_injective {v w : Value} (proper : v.Proper) (proper' : w.Proper)
    (same : v.typed = w.typed) : v = w := by
  have read (v : Value) : Source.literal? v.typed = some (.ofValue v) :=
    Source.literal?_eq_some.2 ⟨rfl, Value.sourceText_of_nil⟩
  have literals : Literal.ofValue v = .ofValue w := by
    rw [← Option.some_inj, ← read, same, read]
  rw [← Option.some_inj, ← Literal.value?_ofValue proper, literals, Literal.value?_ofValue proper']

theorem Value.of_mem_typed {v : Value} (inside : c ∈ v.typed.toList) : 32 < c.toNat := by
  simp only [typed, String.toList_append, List.mem_append] at inside
  rcases inside with (kind | at') | text
  · have letters : Plain v.kind.name.toList := by
      cases v.kind <;> decide
    have range := letters c kind
    omega
  · obtain rfl := List.mem_singleton.1 at'
    decide
  · exact (Value.of_mem_sourceText text).1

/-- A name that is told apart from what stands around it. It may be empty. -/
structure LegibleName (name : String) : Prop where
  space : ' ' ∉ name.toList
  feed : '\n' ∉ name.toList
  equals : '=' ∉ name.toList

theorem LegibleName.of_isIdentifier {name : String} (identifier : isIdentifier name = true) :
    LegibleName name :=
  ⟨not_mem_identifier (by decide +kernel) identifier,
    not_mem_identifier (by decide +kernel) identifier,
    not_mem_identifier (by decide +kernel) identifier⟩

namespace Frame

def LegibleSlot (slot : String × Option Value) : Prop :=
  LegibleName slot.1 ∧ ∀ v ∈ slot.2, v.Proper

def Legible (f : Frame) : Prop := ∀ slot ∈ f.slots, LegibleSlot slot

def slotText : Option Value → String
  | some value => value.typed
  | none => "<uninitialized>"

theorem displaySlot_eq (slot : String × Option Value) :
    (displaySlot slot).toList = slot.1.toList ++ '=' :: (slotText slot.2).toList := by
  obtain ⟨name, value⟩ := slot
  cases value <;> simp [displaySlot, slotText]

theorem slotText_injective {value other : Option Value} (proper : ∀ v ∈ value, v.Proper)
    (proper' : ∀ v ∈ other, v.Proper) (same : slotText value = slotText other) : value = other := by
  have apart (v : Value) : v.typed ≠ "<uninitialized>" := by
    -- Every typed text has the mark behind its kind.
    intro same
    have mark : '@' ∈ v.typed.toList := by simp [Value.typed]
    rw [same] at mark
    revert mark
    decide
  cases value with
  | none =>
    cases other with
    | none => rfl
    | some w => exact absurd same.symm (apart w)
  | some v =>
    cases other with
    | none => exact absurd same (apart v)
    | some w => rw [Value.typed_injective (proper v rfl) (proper' w rfl) same]

theorem displaySlot_injective {slot other : String × Option Value} (legible : LegibleSlot slot)
    (legible' : LegibleSlot other) (same : displaySlot slot = displaySlot other) :
    slot = other := by
  have texts := congrArg String.toList same
  rw [displaySlot_eq, displaySlot_eq] at texts
  obtain ⟨names, values⟩ := append_mark_inj legible.1.equals legible'.1.equals texts
  exact Prod.ext (String.toList_injective names)
    (slotText_injective legible.2 legible'.2 (String.toList_injective values))

theorem high_of_mem_slotText {value : Option Value} (inside : c ∈ (slotText value).toList) :
    32 < c.toNat := by
  cases value with
  | some v => exact Value.of_mem_typed inside
  | none =>
    have word : Plain "<uninitialized>".toList := by decide
    have range := word c inside
    omega

theorem mark_not_mem_displaySlot {slot : String × Option Value} (name : mark ∉ slot.1.toList)
    (low : mark.toNat ≤ 32) : mark ∉ (displaySlot slot).toList := by
  have equals : mark ≠ '=' := by
    rintro rfl
    exact absurd low (by decide)
  have text : mark ∉ (slotText slot.2).toList := fun inside =>
    absurd (high_of_mem_slotText inside) (by omega)
  simp [displaySlot_eq, name, equals, text]

theorem toList_display {f : Frame} (nonempty : f.slots ≠ []) :
    f.display.toList = List.intercalate [' '] ((f.slots.map displaySlot).map String.toList) := by
  have some : f.slots.isEmpty = false := List.isEmpty_eq_false_iff.2 nonempty
  rw [display, some, if_neg (by decide), String.toList_intercalate]
  rfl

theorem equals_mem_display {f : Frame} (nonempty : f.slots ≠ []) : '=' ∈ f.display.toList := by
  rw [toList_display nonempty]
  obtain ⟨slot, slots, same⟩ := List.exists_cons_of_ne_nil nonempty
  rw [same]
  cases slots <;> simp [displaySlot_eq, List.intercalate_cons_cons]

theorem display_eq_empty_iff {f : Frame} : f.display = "(empty)" ↔ f.slots = [] := by
  refine ⟨fun same => ?_, fun empty => by simp [display, empty]⟩
  by_contra nonempty
  have equals := equals_mem_display nonempty
  rw [same] at equals
  revert equals
  decide

theorem display_ne_undefined (f : Frame) : f.display ≠ "(undefined)" := by
  intro same
  by_cases empty : f.slots = []
  · have other := same.symm.trans (display_eq_empty_iff.2 empty)
    revert other
    decide
  · have equals := equals_mem_display empty
    rw [same] at equals
    revert equals
    decide

theorem display_injective {f g : Frame} (legible : f.Legible) (legible' : g.Legible)
    (same : f.display = g.display) : f = g := by
  have clean {f : Frame} (legible : f.Legible) :
      ∀ part ∈ (f.slots.map displaySlot).map String.toList, part ≠ [] ∧ ' ' ∉ part := by
    rw [List.map_map, List.forall_mem_map]
    intro slot listed
    exact ⟨by simp [displaySlot_eq],
      mark_not_mem_displaySlot (legible slot listed).1.space (by decide)⟩
  have slots : f.slots = g.slots := by
    by_cases empty : f.slots = []
    · rw [empty, display_eq_empty_iff.1 (same.symm.trans (display_eq_empty_iff.2 empty))]
    · have other : g.slots ≠ [] := fun none =>
        empty (display_eq_empty_iff.1 (same.trans (display_eq_empty_iff.2 none)))
      have texts := congrArg String.toList same
      rw [toList_display empty, toList_display other] at texts
      have parts := intercalate_inj [] (by simp) (clean legible) (clean legible') texts
      refine map_inj_of_mem (fun slot listed other listed' => ?_)
        ((List.map_inj_right fun _ _ => String.toList_injective).1 parts)
      exact displaySlot_injective (legible slot listed) (legible' other listed')
  exact congrArg Frame.mk slots

theorem feed_not_mem_display {f : Frame} (legible : f.Legible) : '\n' ∉ f.display.toList := by
  by_cases empty : f.slots = []
  · rw [display_eq_empty_iff.2 empty]
    decide
  · intro feed
    rw [toList_display empty] at feed
    rcases of_mem_intercalate feed with space | ⟨_, listed, inside⟩
    · cases List.mem_singleton.1 space
    · rw [List.map_map] at listed
      obtain ⟨slot, given, rfl⟩ := List.mem_map.1 listed
      exact mark_not_mem_displaySlot (legible slot given).1.feed (by decide) inside

end Frame

end IppCode
