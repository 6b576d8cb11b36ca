import IppCode.Command.Options
import IppCode.Proofs.Command.CommandLine

/-!
# The argument parser keeps to its documentation

Reading an argument undoes writing what it was taken for (`spelt_of_ofArgument`), so the arguments
that were read are those of the items that were seen (`readArguments_documented`).
-/

namespace IppCode.Command

variable {argument value file : RawText} {arguments argv : List RawText} {c : Counter}
  {found found₁ found' : Matches} {name other : FileOption} {word : Word} {item : Item}
  {items : List Item}

inductive Spelt : Word → RawText → Prop
  | counter (c : Counter) : Spelt (.counter c) (Text.bytes c.flag)
  | file (name : FileOption) : Spelt (.file name) (Text.bytes name.flag)
  | fileValue (name : FileOption) (value : RawText) :
      Spelt (.fileValue name value) (Text.bytes (name.flag ++ "=") ++ value)

def Word.isOption : Word → Bool
  | .counter _ | .file _ | .fileValue _ _ => true
  | _ => false

theorem eq_of_attached? {flag : String} (attached : attached? flag argument = some value) :
    argument = Text.bytes (flag ++ "=") ++ value := by
  simp only [attached?] at attached
  split at attached
  · rename_i starts
    obtain ⟨tail, split⟩ := List.isPrefixOf_iff_prefix.1 starts
    rw [← split, List.drop_left, Option.some.injEq] at attached
    rw [← split, attached]
  · cases attached

theorem eq_of_findSome?_attached (attached : FileOption.all.findSome? (fun name =>
    (attached? name.flag argument).map (name, ·)) = some (name, value)) :
    argument = Text.bytes (name.flag ++ "=") ++ value := by
  obtain ⟨other, -, same⟩ := List.exists_of_findSome?_eq_some attached
  obtain ⟨v, split, pair⟩ := Option.map_eq_some_iff.1 same
  cases pair
  exact eq_of_attached? split

theorem longFlag_spelt (option : (longFlag argument).isOption = true) :
    Spelt (longFlag argument) argument := by
  unfold longFlag at option ⊢
  cases flag : flagsWithoutValue.find? fun entry => Text.bytes entry.1 == argument with
  | some entry =>
    obtain ⟨text, word⟩ := entry
    simp only [flag] at option ⊢
    obtain rfl : Text.bytes text = argument := by simpa using List.find?_some flag
    have member := List.mem_of_find?_eq_some flag
    simp only [flagsWithoutValue, List.mem_cons, Prod.mk.injEq, List.not_mem_nil,
      or_false] at member
    rcases member with ⟨rfl, rfl⟩ | ⟨rfl, rfl⟩ | ⟨rfl, rfl⟩ | ⟨rfl, rfl⟩ | ⟨rfl, rfl⟩
    · cases option
    · cases option
    · exact .counter .executed
    · exact .counter .hottest
    · exact .counter .peak
  | none =>
    simp only [flag] at option ⊢
    cases alone : FileOption.all.find? fun name => Text.bytes name.flag == argument with
    | some name =>
      obtain rfl : Text.bytes name.flag = argument := by simpa using List.find?_some alone
      exact .file name
    | none =>
      simp only [alone] at option ⊢
      cases attached : FileOption.all.findSome? fun name =>
          (attached? name.flag argument).map (name, ·) with
      | none =>
        simp only [attached] at option
        split at option <;> cases option
      | some pair =>
        obtain ⟨name, value⟩ := pair
        simp only [attached] at option ⊢
        obtain rfl := eq_of_findSome?_attached attached
        split at option
        · cases option
        · rename_i nonempty
          rw [if_neg nonempty]
          exact .fileValue name value

theorem not_isOption_shortFlags : (shortFlags argument).isOption = false := by
  unfold shortFlags
  split
  · rfl
  · split
    · rfl
    · split <;> rfl

theorem spelt_of_ofArgument (h : Word.ofArgument argument = word)
    (option : word.isOption = true) : Spelt word argument := by
  subst h
  unfold Word.ofArgument at option ⊢
  split at option
  · cases option
  · rename_i proper
    rw [if_neg proper]
    split at option
    · rename_i long
      rw [if_pos long]
      exact longFlag_spelt option
    · cases option.symm.trans not_isOption_shortFlags

theorem longFlag_ne_terminator : longFlag argument ≠ .terminator := by
  have others : ∀ entry ∈ flagsWithoutValue, entry.2 ≠ .terminator := by decide
  unfold longFlag
  split
  · rename_i flag
    exact others _ (List.mem_of_find?_eq_some flag)
  · split
    · simp
    · split
      · split <;> simp
      · split <;> simp

theorem shortFlags_ne_terminator : shortFlags argument ≠ .terminator := by
  unfold shortFlags
  split
  · simp
  · split
    · simp
    · split <;> simp

theorem eq_of_terminator (word : Word.ofArgument argument = .terminator) :
    argument = Text.bytes "--" := by
  unfold Word.ofArgument at word
  split at word
  · assumption
  · split at word
    · exact absurd word longFlag_ne_terminator
    · exact absurd word shortFlags_ne_terminator

theorem not_prefix_of_separate (separate : isSeparateValue value = true) :
    ¬ Text.bytes "--" <+: value := by
  rintro ⟨tail, rfl⟩
  cases separate

/-- What items add to what was found before them. -/
structure Matches.Gains (found : Matches) (items : List Item) (found' : Matches) : Prop where
  once : ((items.filterMap Item.file?).map Prod.fst).Nodup
  free : ∀ name value, (name, value) ∈ items.filterMap Item.file? → found.file? name = none
  files : ∀ name value, found'.file? name = some value ↔
    found.file? name = some value ∨ (name, value) ∈ items.filterMap Item.file?
  seen : found'.seen = found.seen ++ items

namespace Matches

theorem file?_see : (found.see item).file? name = found.file? name := by
  cases name <;> rfl

theorem file?_setFile :
    (found.setFile name value).file? other =
      if other = name then some value else found.file? other := by
  cases name <;> cases other <;> rfl

theorem setOnce_eq_ok (set : found.setOnce name value item = .ok found₁) :
    found.file? name = none ∧ found₁ = (found.setFile name value).see item := by
  unfold setOnce at set
  split at set
  · cases set
  · rename_i free
    exact ⟨by simpa using free, (Except.ok.inj set).symm⟩

theorem seen_setFile : (found.setFile name value).seen = found.seen := by
  cases name <;> rfl

namespace Gains

theorem nil (found : Matches) : Gains found [] found where
  once := List.nodup_nil
  free := by simp
  files := by simp
  seen := (List.append_nil _).symm

theorem cons_of_file?_eq_none (plain : item.file? = none)
    (gains : Gains (found.see item) items found') : Gains found (item :: items) found' where
  once := by
    rw [List.filterMap_cons_none plain]
    exact gains.once
  free name value later := by
    rw [List.filterMap_cons_none plain] at later
    exact file?_see.symm.trans (gains.free name value later)
  files name value := by
    rw [List.filterMap_cons_none plain, gains.files, file?_see]
  seen := by
    rw [gains.seen, see, List.append_assoc]
    rfl

theorem cons_of_setOnce (set : found.setOnce name value item = .ok found₁)
    (given : item.file? = some (name, value)) (gains : Gains found₁ items found') :
    Gains found (item :: items) found' := by
  obtain ⟨free, rfl⟩ := setOnce_eq_ok set
  have listed : (item :: items).filterMap Item.file? =
      (name, value) :: items.filterMap Item.file? := List.filterMap_cons_some given
  have later (n : FileOption) (v : RawText) (inside : (n, v) ∈ items.filterMap Item.file?) :
      n ≠ name ∧ found.file? n = none := by
    have before := gains.free n v inside
    rw [file?_see, file?_setFile] at before
    split at before
    · cases before
    · rename_i apart
      exact ⟨apart, before⟩
  constructor
  · rw [listed, List.map_cons, List.nodup_cons]
    refine ⟨fun again => ?_, gains.once⟩
    obtain ⟨⟨n, v⟩, inside, same⟩ := List.mem_map.1 again
    exact (later n v inside).1 same
  · intro n v inside
    rw [listed, List.mem_cons] at inside
    rcases inside with here | inside
    · obtain ⟨rfl, -⟩ := Prod.mk.inj here
      exact free
    · exact (later n v inside).2
  · intro n v
    rw [gains.files, file?_see, file?_setFile, listed, List.mem_cons, Prod.mk.injEq]
    by_cases here : n = name
    · subst here
      simp [free, eq_comm (a := v)]
    · simp [here]
  · rw [gains.seen, see, List.append_assoc, seen_setFile]
    rfl

end Gains

theorem exists_items (ok : found.read arguments = .ok (.options found')) :
    ∃ items, arguments = items.flatMap Item.arguments ∧ Orderly items ∧
      found.Gains items found' := by
  fun_induction found.read arguments with
  | case1 found =>
    cases ok
    exact ⟨[], rfl, .nil, .nil _⟩
  | case2 found argument word =>
    cases ok
    obtain rfl := eq_of_terminator word
    exact ⟨[.terminator], rfl, .terminator, .cons_of_file?_eq_none rfl (.nil _)⟩
  | case6 found argument rest c word ih =>
    obtain ⟨items, rfl, orderly, gains⟩ := ih ok
    cases spelt_of_ofArgument word rfl
    have admitted : (Item.counter c none).Admitted := rfl
    exact ⟨_, rfl, .cons admitted orderly, .cons_of_file?_eq_none rfl gains⟩
  | case8 found argument rest name value word found₁ set ih =>
    obtain ⟨items, rfl, orderly, gains⟩ := ih ok
    cases spelt_of_ofArgument word rfl
    have admitted : (Item.attached name value).Admitted := trivial
    exact ⟨_, rfl, .cons admitted orderly, .cons_of_setOnce set rfl gains⟩
  | case10 found argument name word value rest separate found₁ set ih =>
    obtain ⟨items, rfl, orderly, gains⟩ := ih ok
    cases spelt_of_ofArgument word rfl
    have admitted : (Item.separate name value).Admitted := not_prefix_of_separate separate
    exact ⟨_, rfl, .cons admitted orderly, .cons_of_setOnce set rfl gains⟩
  | case3 | case4 | case5 | case7 | case9 | case11 | case12 | case13 => cases ok

end Matches

theorem readArguments_documented : ArgumentParser.Documented readArguments := by
  intro argv found parsed
  have read : Matches.initial.read (argv.drop 1) = .ok (.options found) := by
    unfold readArguments at parsed
    split at parsed <;> cases parsed
    assumption
  obtain ⟨items, spelled, orderly, gains⟩ := Matches.exists_items read
  have seen : found.seen = items := gains.seen
  constructor
  · rw [spelled, seen]
  · intro name value
    have initial : Matches.initial.file? name = none := by cases name <;> rfl
    rw [gains.files, initial, seen]
    simp
  · intro before after split item later
    rw [orderly.ended (seen.symm.trans split)] at later
    cases later
  · intro name value listed
    exact orderly.admitted_of_ne (seen ▸ listed) (by simp)
  · intro c value listed
    exact orderly.admitted_of_ne (seen ▸ listed) (by simp)
  · intro argument listed
    exact orderly.admitted_of_ne (seen ▸ listed) (by simp)
  · rw [seen]
    exact gains.once

end IppCode.Command
