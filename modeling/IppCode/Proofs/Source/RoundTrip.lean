import IppCode.Proofs.Source.Grammar
import IppCode.Source.Render

/-!
# Loading rendered programs

Loading gives loadable programs only, and the loadable programs are those that loading gives back
from what they are rendered to (`load_render_iff`).
-/

namespace IppCode.Source

open Text

theorem readsAll_iff {shapes : List Shape} {words : List String} {found : List Argument} :
    ReadsAll shapes words found ↔ words = found.map Argument.display ∧
      List.Forall₂ (fun a shape => a.fits shape = true) found shapes ∧ ∀ a ∈ found, a.Named := by
  constructor
  · intro reads
    induction reads with
    | nil => exact ⟨rfl, .nil, nofun⟩
    | cons read _ ih =>
      obtain ⟨displays, fits, names⟩ := ih
      obtain ⟨display, fit, named⟩ := argument?_eq_some.1 (reads_iff.1 read)
      exact ⟨List.cons_eq_cons.2 ⟨display, displays⟩, .cons fit fits,
        List.forall_mem_cons.2 ⟨named, names⟩⟩
  · rintro ⟨rfl, fits, named⟩
    induction fits with
    | nil => exact .nil
    | cons fit fits ih =>
      obtain ⟨first, others⟩ := List.forall_mem_cons.1 named
      exact .cons (reads_iff.2 (argument?_eq_some.2 ⟨rfl, fit, first⟩)) (ih others)

theorem Spells.writable {words : List String} {i : Instruction} (spells : Spells words i)
    (clean : ∀ word ∈ words, IsWord word.toList) : i.Writable := by
  obtain ⟨-, reads⟩ := spells
  obtain ⟨rfl, fits, named⟩ := readsAll_iff.1 reads
  refine ⟨fits, fun a listed => Argument.writable_iff.2 ⟨named a listed, ?_⟩⟩
  exact clean _ (List.mem_cons_of_mem _ (List.mem_map_of_mem listed))

theorem writable_of_spells {lines : List (Nat × List String)} {given : List Instruction}
    (lined : List.Forall₂ (fun line i => Spells line.2 i) lines given)
    (clean : ∀ line ∈ lines, ∀ word ∈ line.2, IsWord word.toList) : ∀ i ∈ given, i.Writable := by
  induction lined with
  | nil => nofun
  | cons spells _ ih =>
    obtain ⟨first, others⟩ := List.forall_mem_cons.1 clean
    exact List.forall_mem_cons.2 ⟨spells.writable first, ih others⟩

theorem spells_words {i : Instruction} (writable : i.Writable) : Spells i.words i := by
  have named (a : Argument) (listed : a ∈ i.arguments) : a.Named :=
    (Argument.writable_iff.1 (writable.arguments a listed)).1
  exact .line (Opcode.ofMnemonic?_eq_some.1 i.opcode.ofMnemonic?_mnemonic)
    (readsAll_iff.2 ⟨rfl, writable.fits, named⟩)

theorem words_significantLines (text : List Char) :
    (significantLines text).map Prod.snd =
      ((lines text).map lineWords).filter fun found => !found.isEmpty := by
  have counted (split : List (List Char)) (start : Nat) :
      ((split.zipIdx start).filterMap fun entry => if (lineWords entry.1).isEmpty then none
        else some (entry.2, lineWords entry.1)).map Prod.snd =
          (split.map lineWords).filter fun found => !found.isEmpty := by
    induction split generalizing start with
    | nil => rfl
    | cons line split ih =>
      rw [List.zipIdx_cons, List.map_cons]
      cases empty : (lineWords line).isEmpty with
      | true =>
        rw [List.filterMap_cons_none (by simp only [empty, if_true]), ih,
          List.filter_cons_of_neg (by simp only [empty, Bool.not_true]; decide)]
      | false =>
        rw [List.filterMap_cons_some (by simp only [empty, Bool.false_eq_true, if_false]; rfl),
          List.map_cons, ih, List.filter_cons_of_pos (by simp only [empty, Bool.not_false])]
  exact counted (lines text) 1

theorem lines_render {p : Program} (writable : ∀ i ∈ p.instructions, i.Writable) :
    lines (render p).toList =
      (header :: p.instructions.toList.map Instruction.display).map String.toList := by
  have text : (render p).toList =
      ((header :: p.instructions.toList.map Instruction.display).map String.toList).flatMap
        (· ++ ['\n']) := by
    rw [render, String.toList_join, List.flatMap_map, List.flatMap_map]
    simp
  rw [text]
  refine lines_flatMap fun _ listed => ?_
  obtain ⟨line, written, rfl⟩ := List.mem_map.1 listed
  rcases List.mem_cons.1 written with rfl | written
  · decide
  · obtain ⟨i, given, rfl⟩ := List.mem_map.1 written
    exact (writable i (by simpa using given)).one_line

theorem words_render {p : Program} (writable : ∀ i ∈ p.instructions, i.Writable) :
    (significantLines (render p).toList).map Prod.snd =
      [header] :: p.instructions.toList.map Instruction.words := by
  have first : lineWords header.toList = [header] := by decide +kernel
  have others : (p.instructions.toList.map Instruction.display).map (lineWords ·.toList) =
      p.instructions.toList.map Instruction.words := by
    rw [List.map_map]
    exact List.map_congr_left fun i given => (writable i (by simpa using given)).lineWords
  have found : ((header :: p.instructions.toList.map Instruction.display).map
      String.toList).map lineWords = [header] :: p.instructions.toList.map Instruction.words := by
    rw [List.map_map, List.map_cons, ← others]
    exact congrArg (· :: _) first
  rw [words_significantLines, lines_render writable, found, List.filter_eq_self]
  refine List.forall_mem_cons.2 ⟨rfl, fun _ listed => ?_⟩
  obtain ⟨i, -, rfl⟩ := List.mem_map.1 listed
  rfl

theorem isWord_of_significant {text : List Char} {line : Nat × List String} {word : String}
    (significant : line ∈ significantLines text) (written : word ∈ line.2) :
    IsWord word.toList := by
  obtain ⟨-, _, source, -, -, same⟩ := mem_significantLines.1 significant
  exact isWord_of_mem_lineWords (same ▸ written)

theorem loadable_of_load {text : String} {p : Program} (h : load text = .ok p) : p.Loadable := by
  have clean : ∀ line ∈ significantLines text.toList, ∀ word ∈ line.2, IsWord word.toList :=
    fun _ significant _ => isWord_of_significant significant
  have loads := load_eq_ok.1 h
  generalize significantLines text.toList = significant at clean loads
  obtain ⟨-, lined, numbered⟩ := loads
  refine ⟨numbered, fun i listed => ?_⟩
  exact writable_of_spells lined (List.forall_mem_cons.1 clean).2 i (Array.mem_toList_iff.2 listed)

theorem load_render {p : Program} (loadable : p.Loadable) : load (render p) = .ok p := by
  obtain ⟨⟨number, _⟩, lines, split, rfl, rest⟩ :=
    List.map_eq_cons_iff.1 (words_render loadable.writable)
  have headed : sameLetters header header = true := by decide +kernel
  have lined : List.Forall₂ (fun line i => Spells line.2 i) lines p.instructions.toList := by
    rw [← List.forall₂_map_left_iff, rest, List.forall₂_map_left_iff, List.forall₂_same]
    exact fun i listed => spells_words (loadable.writable i (Array.mem_toList_iff.1 listed))
  exact load_eq_ok.2 (split ▸ .program headed lined loadable.numbered)

/-- Loading and rendering are inverse on just the loadable programs, and loading gives no others.
Orders are 32 bits wide, so a short program has the orders 1, 2, 3 and so on. -/
theorem load_render_iff :
    (∀ p, load (render p) = .ok p ↔ p.Loadable) ∧
    (∀ p : Program, p.instructions.size < UInt32.size → (p.Numbered ↔
      ∀ (k : Nat) (i : Instruction), p.instructions[k]? = some i → i.order.toNat = k + 1)) ∧
    ∀ text p, load text = .ok p →
      p.Loadable ∧ load (render p) = .ok p ∧ (load (render p)).map render = .ok (render p) := by
  refine ⟨fun p => ⟨loadable_of_load, load_render⟩, fun p => Program.numbered_iff, ?_⟩
  intro text p loaded
  have loadable := loadable_of_load loaded
  have again := load_render loadable
  exact ⟨loadable, again, by rw [again]; rfl⟩

example : (load ".IPPcode22 # header\nwrite  string@a#b").map render =
    .ok ".IPPcode22\nWRITE string@a\n" := by
  rfl

end IppCode.Source
