import IppCode.Proofs.Source.Argument
import Mathlib.Data.List.Forall2
import Mathlib.Data.List.TakeWhile

/-!
# Loadable programs

A program is loadable if its orders count from one, its arguments have the shapes of the signatures
and its names and literals can be written as words. An argument is written as one word just if it
is writable (`writable_iff`), and the words of a line are found again in it.
-/

namespace IppCode

open Text

def Text.Unbroken (text : List Char) : Prop := ∀ c ∈ text, isBlank c = false

instance {text : List Char} : Decidable (Unbroken text) :=
  List.decidableBAll _ text

def Argument.Writable : Argument → Prop
  | var v => isIdentifier v.name = true ∧ Unbroken v.name.toList
  | literal l => Unbroken l.text.toList ∧ '#' ∉ l.text.toList ∧ (l.kind = .nil → l.text = "nil")
  | label name => isIdentifier name = true ∧ Unbroken name.toList
  | kind _ => True

def Program.Numbered (p : Program) : Prop :=
  ∀ (k : Nat) (i : Instruction), p.instructions[k]? = some i → i.order = .ofNat (k + 1)

structure Instruction.Writable (i : Instruction) : Prop where
  fits : List.Forall₂ (fun a shape => a.fits shape = true) i.arguments i.opcode.signature
  arguments : ∀ a ∈ i.arguments, a.Writable

/-- What a program must be for its source text to be read back as the program. -/
structure Program.Loadable (p : Program) : Prop where
  numbered : p.Numbered
  writable : ∀ i ∈ p.instructions, i.Writable

theorem Program.numbered_iff {p : Program} (small : p.instructions.size < UInt32.size) :
    p.Numbered ↔
      ∀ (k : Nat) (i : Instruction), p.instructions[k]? = some i → i.order.toNat = k + 1 := by
  refine forall_congr' fun k => forall_congr' fun i => imp_congr_right fun found => ?_
  have inside := (Array.getElem?_eq_some_iff.1 found).1
  have exactly : (UInt32.ofNat (k + 1)).toNat = k + 1 := UInt32.toNat_ofNat_of_lt' (by omega)
  rw [← UInt32.toNat_inj, exactly]

def Text.IsWord (word : List Char) : Prop := word ≠ [] ∧ Unbroken word ∧ '#' ∉ word

instance {word : List Char} : Decidable (IsWord word) :=
  inferInstanceAs (Decidable (word ≠ [] ∧ Unbroken word ∧ '#' ∉ word))

theorem comment_not_mem_identifier {name : String} (identifier : isIdentifier name = true) :
    '#' ∉ name.toList :=
  not_mem_identifier (by decide +kernel) identifier

theorem isWord_identifier {name : String} (identifier : isIdentifier name = true) :
    IsWord name.toList ↔ Unbroken name.toList := by
  refine ⟨fun word => word.2.1, fun unbroken =>
    ⟨fun empty => ?_, unbroken, comment_not_mem_identifier identifier⟩⟩
  simp [isIdentifier, empty] at identifier

theorem isWord_display {name rest : String} (clean : Unbroken name.toList ∧ '#' ∉ name.toList) :
    IsWord (name ++ "@" ++ rest).toList ↔ Unbroken rest.toList ∧ '#' ∉ rest.toList := by
  have mark : isBlank '@' = false := rfl
  have apart : '#' ≠ '@' := by decide
  rw [String.toList_append, String.toList_append, List.append_assoc]
  constructor
  · rintro ⟨-, unbroken, bare⟩
    simp only [List.mem_append, not_or] at bare
    exact ⟨fun c inside => unbroken c (by simp [inside]), bare.2.2⟩
  · rintro ⟨unbroken, bare⟩
    refine ⟨by simp, fun c inside => ?_, by simp [clean.2, bare, apart]⟩
    rcases List.mem_append.1 inside with front | back
    · exact clean.1 c front
    · rcases List.mem_cons.1 back with rfl | back
      · exact mark
      · exact unbroken c back

theorem mnemonic_isWord (opcode : Opcode) : IsWord opcode.mnemonic.toList := by
  have table : ∀ opcode ∈ Opcode.all, IsWord opcode.mnemonic.toList := by
    decide +kernel
  exact table opcode opcode.mem_all

namespace Argument

variable {a : Argument}

theorem writable_iff : a.Writable ↔ a.Named ∧ IsWord a.display.toList := by
  cases a with
  | var v =>
    have scope : Unbroken v.scope.name.toList ∧ '#' ∉ v.scope.name.toList := by
      cases v.scope <;> decide +kernel
    refine and_congr_right fun identifier => ?_
    rw [display, Variable.display, isWord_display scope]
    exact (and_iff_left (comment_not_mem_identifier identifier)).symm
  | literal l =>
    have kind : Unbroken l.kind.name.toList ∧ '#' ∉ l.kind.name.toList := by
      cases l.kind <;> decide +kernel
    rw [display, Literal.display, isWord_display kind]
    constructor
    · rintro ⟨unbroken, bare, nil⟩
      exact ⟨nil, unbroken, bare⟩
    · rintro ⟨nil, unbroken, bare⟩
      exact ⟨unbroken, bare, nil⟩
  | label name => exact and_congr_right fun identifier => (isWord_identifier identifier).symm
  | kind k =>
    have word : IsWord k.name.toList := by
      cases k <;> decide +kernel
    exact iff_of_true trivial ⟨trivial, word⟩

end Argument

theorem lineWords_intercalate {parts : List String} (clean : ∀ part ∈ parts, IsWord part.toList) :
    Source.lineWords (String.intercalate " " parts).toList = parts := by
  have whole : (String.intercalate " " parts).toList.takeWhile (· != '#') =
      (String.intercalate " " parts).toList := by
    rw [List.takeWhile_eq_self_iff]
    intro c inside
    rcases of_mem_toList_intercalate inside with space | ⟨part, listed, inside⟩
    · obtain rfl := List.mem_singleton.1 space
      rfl
    · have proper : c ≠ '#' := fun comment => (clean part listed).2.2 (comment ▸ inside)
      simpa using proper
  have split : words (List.intercalate [' '] (parts.map String.toList)) =
      parts.map String.toList := by
    refine words_intercalate fun _ listed => ?_
    obtain ⟨part, found, rfl⟩ := List.mem_map.1 listed
    exact ⟨(clean part found).1, (clean part found).2.1⟩
  rw [Source.lineWords, whole, String.toList_intercalate]
  simp only [String.reduceToList, split, List.map_map]
  simp [Function.comp_def]

theorem isWord_of_mem_lineWords {line : List Char} {word : String}
    (h : word ∈ Source.lineWords line) : IsWord word.toList := by
  obtain ⟨part, found, rfl⟩ := List.mem_map.1 h
  obtain ⟨proper, clean⟩ := of_mem_words found
  rw [String.toList_ofList]
  refine ⟨proper, fun c inside => (clean c inside).1, fun comment => ?_⟩
  have before := List.mem_takeWhile_imp (clean _ comment).2
  simp at before

namespace Instruction

variable {i : Instruction}

def words (i : Instruction) : List String := i.opcode.mnemonic :: i.arguments.map Argument.display

theorem Writable.isWord (writable : i.Writable) : ∀ word ∈ i.words, IsWord word.toList := by
  refine List.forall_mem_cons.2 ⟨mnemonic_isWord i.opcode, fun _ listed => ?_⟩
  obtain ⟨a, given, rfl⟩ := List.mem_map.1 listed
  exact (Argument.writable_iff.1 (writable.arguments a given)).2

theorem Writable.lineWords (writable : i.Writable) : Source.lineWords i.display.toList = i.words :=
  lineWords_intercalate writable.isWord

theorem Writable.one_line (writable : i.Writable) : '\n' ∉ i.display.toList := by
  intro feed
  rcases of_mem_toList_intercalate feed with space | ⟨word, listed, inside⟩
  · cases List.mem_singleton.1 space
  · have blank : isBlank '\n' = false := (writable.isWord word listed).2.1 _ inside
    cases blank

end Instruction

end IppCode
