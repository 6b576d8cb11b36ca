import IppCode.Text.Split

/-!
# Words and lines

What the splitters of a text find is what was put together with their separators, and the parts they
find have no separators in them.
-/

namespace IppCode.Text

variable {c mark : Char} {part text rest before after : List Char} {separates : Char → Bool}

theorem span_append {p : Char → Bool} (inside : ∀ c ∈ part, p c = true)
    (outside : ∀ c ∈ rest.head?, p c = false) :
    (part ++ rest).takeWhile p = part ∧ (part ++ rest).dropWhile p = rest := by
  rw [List.takeWhile_append_of_pos inside, List.dropWhile_append_of_pos inside]
  cases rest with
  | nil => simp
  | cons c rest =>
    have stops : ¬ p c = true := by simp [outside c rfl]
    rw [List.takeWhile_cons_of_neg stops, List.dropWhile_cons_of_neg stops, List.append_nil]
    exact ⟨rfl, rfl⟩

theorem mem_consFirst {parts : List (List Char)} (h : part ∈ consFirst c parts) :
    part ∈ parts ∨ ∃ tail, part = c :: tail ∧ (tail ∈ parts ∨ tail = []) := by
  cases parts with
  | nil => exact .inr ⟨[], List.mem_singleton.1 h, .inr rfl⟩
  | cons first others =>
    rcases List.mem_cons.1 h with rfl | later
    · exact .inr ⟨first, rfl, .inl List.mem_cons_self⟩
    · exact .inl (List.mem_cons_of_mem _ later)

theorem splitAll_cons :
    splitAll separates (c :: text) =
      if separates c then [] :: splitAll separates text
      else consFirst c (splitAll separates text) := rfl

theorem of_mem_splitAll (h : part ∈ splitAll separates text) :
    ∀ c ∈ part, separates c = false ∧ c ∈ text := by
  induction text generalizing part with
  | nil =>
    obtain rfl := List.mem_singleton.1 h
    simp
  | cons d text ih =>
    have later {part : List Char} (h : part ∈ splitAll separates text) :
        ∀ c ∈ part, separates c = false ∧ c ∈ d :: text :=
      fun c inside => ⟨(ih h c inside).1, List.mem_cons_of_mem _ (ih h c inside).2⟩
    rw [splitAll_cons] at h
    split at h
    · rcases List.mem_cons.1 h with rfl | h
      · simp
      · exact later h
    · rename_i proper
      rcases mem_consFirst h with h | ⟨tail, rfl, h | rfl⟩
      · exact later h
      · intro c inside
        rcases List.mem_cons.1 inside with rfl | inside
        · exact ⟨by simpa using proper, List.mem_cons_self⟩
        · exact later h c inside
      · intro c inside
        obtain rfl := List.mem_singleton.1 inside
        exact ⟨by simpa using proper, List.mem_cons_self⟩

theorem splitAll_of_clean (clean : ∀ c ∈ part, separates c = false) :
    splitAll separates part = [part] := by
  induction part with
  | nil => rfl
  | cons c part ih =>
    have proper := clean c List.mem_cons_self
    rw [splitAll_cons, ih fun d inside => clean d (List.mem_cons_of_mem _ inside)]
    simp [proper, consFirst]

theorem splitAll_append (clean : ∀ c ∈ part, separates c = false) (separator : separates c = true) :
    splitAll separates (part ++ c :: rest) = part :: splitAll separates rest := by
  induction part with
  | nil => simp [splitAll_cons, separator]
  | cons d part ih =>
    have proper := clean d List.mem_cons_self
    rw [List.cons_append, splitAll_cons, ih fun d inside => clean d (List.mem_cons_of_mem _ inside)]
    simp [proper, consFirst]

theorem of_mem_words (h : part ∈ words text) :
    part ≠ [] ∧ ∀ c ∈ part, isBlank c = false ∧ c ∈ text := by
  obtain ⟨found, proper⟩ := List.mem_filter.1 h
  exact ⟨by simpa using proper, of_mem_splitAll found⟩

theorem words_intercalate {parts : List (List Char)}
    (clean : ∀ part ∈ parts, part ≠ [] ∧ ∀ c ∈ part, isBlank c = false) :
    words (List.intercalate [' '] parts) = parts := by
  have split (others : List (List Char)) {first : List Char}
      (listed : ∀ part ∈ first :: others, part ≠ [] ∧ ∀ c ∈ part, isBlank c = false) :
      splitAll isBlank (List.intercalate [' '] (first :: others)) = first :: others := by
    induction others generalizing first with
    | nil => simpa using splitAll_of_clean (listed first List.mem_cons_self).2
    | cons second others ih =>
      have blank : isBlank ' ' = true := rfl
      rw [List.intercalate_cons_cons, List.append_assoc, List.singleton_append,
        splitAll_append (listed first List.mem_cons_self).2 blank,
        ih fun part later => listed part (List.mem_cons_of_mem _ later)]
  cases parts with
  | nil => rfl
  | cons first others =>
    rw [words, split others clean, List.filter_eq_self]
    exact fun part listed => by simpa using (clean part listed).1

theorem of_mem_intercalate {separator : List Char} {parts : List (List Char)}
    (h : c ∈ List.intercalate separator parts) : c ∈ separator ∨ ∃ part ∈ parts, c ∈ part := by
  induction parts with
  | nil => cases h
  | cons first others ih =>
    cases others with
    | nil => exact .inr ⟨first, List.mem_cons_self, by simpa using h⟩
    | cons second others =>
      rw [List.intercalate_cons_cons, List.mem_append, List.mem_append] at h
      rcases h with (here | between) | later
      · exact .inr ⟨first, List.mem_cons_self, here⟩
      · exact .inl between
      · rcases ih later with between | ⟨part, listed, inside⟩
        · exact .inl between
        · exact .inr ⟨part, List.mem_cons_of_mem _ listed, inside⟩

theorem of_mem_toList_intercalate {separator : String} {parts : List String}
    (h : c ∈ (String.intercalate separator parts).toList) :
    c ∈ separator.toList ∨ ∃ part ∈ parts, c ∈ part.toList := by
  rw [String.toList_intercalate] at h
  rcases of_mem_intercalate h with between | ⟨_, listed, inside⟩
  · exact .inl between
  · obtain ⟨part, found, rfl⟩ := List.mem_map.1 listed
    exact .inr ⟨part, found, inside⟩

theorem lines_append (clean : '\n' ∉ part) : lines (part ++ '\n' :: rest) = part :: lines rest := by
  induction part with
  | nil => rfl
  | cons c part ih =>
    obtain ⟨proper, later⟩ := List.ne_and_not_mem_of_not_mem_cons clean
    have same : lines (c :: (part ++ '\n' :: rest)) =
        if c = '\n' then [] :: lines (part ++ '\n' :: rest)
        else consFirst c (lines (part ++ '\n' :: rest)) := rfl
    rw [List.cons_append, same, if_neg (Ne.symm proper), ih later]
    rfl

theorem lines_flatMap {parts : List (List Char)} (clean : ∀ part ∈ parts, '\n' ∉ part) :
    lines (parts.flatMap (· ++ ['\n'])) = parts := by
  induction parts with
  | nil => rfl
  | cons first others ih =>
    rw [List.flatMap_cons, List.append_assoc, List.singleton_append,
      lines_append (clean first List.mem_cons_self),
      ih fun part later => clean part (List.mem_cons_of_mem _ later)]

theorem splitFirst?_append (clean : mark ∉ before) :
    splitFirst? mark (before ++ mark :: after) = some (before, after) := by
  induction before with
  | nil => simp [splitFirst?]
  | cons c before ih =>
    obtain ⟨proper, later⟩ := List.ne_and_not_mem_of_not_mem_cons clean
    rw [List.cons_append, splitFirst?, if_neg (Ne.symm proper), ih later]
    rfl

theorem splitFirst?_eq_none (clean : mark ∉ text) : splitFirst? mark text = none := by
  induction text with
  | nil => rfl
  | cons c text ih =>
    obtain ⟨proper, later⟩ := List.ne_and_not_mem_of_not_mem_cons clean
    rw [splitFirst?, if_neg (Ne.symm proper), ih later, Option.map_none]

theorem eq_append_of_splitFirst? (h : splitFirst? mark text = some (before, after)) :
    text = before ++ mark :: after := by
  induction text generalizing before with
  | nil => cases h
  | cons c text ih =>
    rw [splitFirst?] at h
    split at h
    · rename_i here
      obtain ⟨rfl, rfl⟩ := Prod.mk.inj (Option.some.inj h)
      rw [here, List.nil_append]
    · obtain ⟨⟨first, second⟩, found, same⟩ := Option.map_eq_some_iff.1 h
      obtain ⟨rfl, rfl⟩ := Prod.mk.inj same
      rw [ih found, List.cons_append]

theorem append_mark_inj {part' rest' : List Char} (clean : mark ∉ part) (clean' : mark ∉ part')
    (same : part ++ mark :: rest = part' ++ mark :: rest') : part = part' ∧ rest = rest' := by
  have found : splitFirst? mark (part ++ mark :: rest) = some (part, rest) :=
    splitFirst?_append clean
  rw [same, splitFirst?_append clean'] at found
  obtain ⟨first, second⟩ := Prod.mk.inj (Option.some.inj found)
  exact ⟨first.symm, second.symm⟩

theorem intercalate_append {separator : List Char} (part : List Char) (parts : List (List Char)) :
    List.intercalate separator (part :: parts) ++ separator =
      (part :: parts).flatMap (· ++ separator) := by
  induction parts generalizing part with
  | nil => simp
  | cons second parts ih =>
    rw [List.intercalate_cons_cons, List.append_assoc, ih]
    rfl

theorem flatMap_inj {lead : List Char} {parts others : List (List Char)}
    (clean : ∀ part ∈ parts, mark ∉ part ++ lead) (clean' : ∀ part ∈ others, mark ∉ part ++ lead)
    (same : parts.flatMap (· ++ (lead ++ [mark])) = others.flatMap (· ++ (lead ++ [mark]))) :
    parts = others := by
  induction parts generalizing others with
  | nil =>
    cases others with
    | nil => rfl
    | cons other others => simp at same
  | cons part parts ih =>
    cases others with
    | nil => simp at same
    | cons other others =>
      obtain ⟨first, clean⟩ := List.forall_mem_cons.1 clean
      obtain ⟨first', clean'⟩ := List.forall_mem_cons.1 clean'
      simp only [List.flatMap_cons, ← List.append_assoc] at same
      simp only [List.append_assoc _ [mark], List.singleton_append] at same
      obtain ⟨front, back⟩ := append_mark_inj first first' same
      simp only [← List.append_assoc] at ih
      rw [List.append_cancel_right front, ih clean clean' back]

/-- Parts that are not empty are found again between separators, if these end with a mark that does
not occur in the parts and nowhere else in the separators. -/
theorem intercalate_inj (lead : List Char) {parts others : List (List Char)}
    (lead_clean : mark ∉ lead)
    (clean : ∀ part ∈ parts, part ≠ [] ∧ mark ∉ part)
    (clean' : ∀ part ∈ others, part ≠ [] ∧ mark ∉ part)
    (same : List.intercalate (lead ++ [mark]) parts = List.intercalate (lead ++ [mark]) others) :
    parts = others := by
  have marked {parts : List (List Char)} (clean : ∀ part ∈ parts, part ≠ [] ∧ mark ∉ part) :
      ∀ part ∈ parts, mark ∉ part ++ lead :=
    fun part listed => by simp [(clean part listed).2, lead_clean]
  have proper (part : List Char) (parts : List (List Char)) (nonempty : part ≠ []) :
      List.intercalate (lead ++ [mark]) (part :: parts) ≠ [] := by
    cases parts <;> simp [List.intercalate_cons_cons, nonempty]
  cases parts with
  | nil =>
    cases others with
    | nil => rfl
    | cons other others =>
      exact absurd same.symm (proper _ _ (clean' other List.mem_cons_self).1)
  | cons part parts =>
    cases others with
    | nil => exact absurd same (proper _ _ (clean part List.mem_cons_self).1)
    | cons other others =>
      refine flatMap_inj (marked clean) (marked clean') ?_
      rw [← intercalate_append, ← intercalate_append, same]

end IppCode.Text
