import IppCode.Command.CommandLine
import IppCode.Proofs.Text.Encoding

/-!
# What parsers see

What a parser sees is in order if it keeps to its documentation (`Matches.Documented.orderly`):
options and flags, and at most the end of the options after them. A scan of the arguments for the
flags of counters finds those that were seen (`Orderly.flagged_eq`).
-/

namespace IppCode

theorem Counter.ofFlag?_eq_some {text : String} {c : Counter} :
    Counter.ofFlag? text = some c ↔ text = c.flag := by
  constructor
  · intro h
    unfold ofFlag? at h
    split at h <;> cases h <;> rfl
  · rintro rfl
    cases c <;> rfl

theorem Counter.ofName?_eq_some {name : String} {c : Counter} :
    Counter.ofName? name = some c ↔ c.flag = "--" ++ name := by
  constructor
  · intro h
    unfold ofName? at h
    split at h <;> cases h <;> rfl
  · intro same
    obtain rfl : name = String.ofList (c.flag.toList.drop 2) := by
      rw [same]
      simp
    cases c <;> rfl

theorem Counter.decode_eq_ok {name : String} {c : Counter} :
    Counter.decode name = .ok c ↔ c.flag = "--" ++ name := by
  rw [← Counter.ofName?_eq_some, Counter.decode]
  cases Counter.ofName? name <;> simp

theorem Counter.decode_eq_error {name text : String} :
    Counter.decode name = .error text ↔
      (∀ c : Counter, c.flag ≠ "--" ++ name) ∧ text = Counter.unknownMessage name := by
  simp only [ne_eq, ← Counter.ofName?_eq_some, Counter.decode]
  cases Counter.ofName? name <;> simp [eq_comm]

namespace Command

variable {argument value : RawText} {rest : List RawText} {c : Counter} {name : FileOption}
  {item : Item} {items : List Item} {found : Matches} {argv : List RawText}

theorem flagged?_eq_some : flagged? argument = some c ↔ argument = Text.bytes c.flag := by
  rw [flagged?, Counter.ofFlag?_eq_some]
  constructor
  · intro text
    cases decoded : Text.ofBytes? argument with
    | none =>
      rw [decoded] at text
      exact absurd text (by cases c <;> decide)
    | some flag =>
      rw [decoded] at text
      obtain rfl : flag = c.flag := text
      exact (Text.ofBytes?_eq_some.1 decoded).symm
  · rintro rfl
    rw [Text.ofBytes?_eq_some.2 rfl]
    rfl

theorem flagged_cons (proper : argument ≠ Text.bytes "--") :
    flagged (argument :: rest) = (flagged? argument).toList ++ flagged rest := by
  have kept : Text.ofBytes? argument ≠ some "--" :=
    fun decoded => proper (Text.ofBytes?_eq_some.1 decoded).symm
  rw [flagged, List.takeWhile_cons_of_pos (by simpa using kept), List.filterMap_cons]
  cases flagged? argument <;> rfl

theorem flagged_terminator : flagged (Text.bytes "--" :: rest) = [] := by
  have decoded : Text.ofBytes? (Text.bytes "--") = some "--" := Text.ofBytes?_eq_some.2 rfl
  rw [flagged, List.takeWhile_cons_of_neg (by simp [decoded])]
  rfl

/-- What a parser may see before the end of the options. -/
def Item.Admitted : Item → Prop
  | counter _ value => value = none
  | separate _ value => ¬ Text.bytes "--" <+: value
  | attached _ _ => True
  | positional _ | terminator => False

theorem not_prefix_of_dashes {text : String} (dashes : Text.bytes "--" <+: Text.bytes text)
    (proper : ¬ Text.bytes "--" <+: value) : value ≠ Text.bytes text := by
  rintro rfl
  exact proper dashes

theorem attached_ne {text : String} (apart : ¬ Text.bytes (name.flag ++ "=") <+: Text.bytes text) :
    Text.bytes (name.flag ++ "=") ++ value ≠ Text.bytes text := by
  intro same
  exact apart (same ▸ List.prefix_append _ _)

theorem Item.Admitted.flagged_append (admitted : item.Admitted) :
    flagged (item.arguments ++ rest) = item.counter?.toList ++ flagged rest := by
  cases item with
  | counter c value =>
    obtain rfl : value = none := admitted
    have proper : Text.bytes c.flag ≠ Text.bytes "--" := by cases c <;> decide
    rw [Item.arguments, List.singleton_append, flagged_cons proper, flagged?_eq_some.2 rfl]
    rfl
  | separate name value =>
    have flag : flagged? (Text.bytes name.flag) = none := by
      rw [Option.eq_none_iff_forall_ne_some]
      intro c found
      have same := flagged?_eq_some.1 found
      revert same
      cases name <;> cases c <;> decide
    have plain : flagged? value = none := by
      rw [Option.eq_none_iff_forall_ne_some]
      intro c found
      exact not_prefix_of_dashes (by cases c <;> decide) admitted (flagged?_eq_some.1 found)
    have proper : Text.bytes name.flag ≠ Text.bytes "--" := by cases name <;> decide
    rw [Item.arguments, List.cons_append, List.singleton_append, flagged_cons proper, flag,
      flagged_cons (not_prefix_of_dashes (by decide) admitted), plain]
    rfl
  | attached name value =>
    have plain : flagged? (Text.bytes (name.flag ++ "=") ++ value) = none := by
      rw [Option.eq_none_iff_forall_ne_some]
      intro c found
      exact attached_ne (by cases name <;> cases c <;> decide) (flagged?_eq_some.1 found)
    rw [Item.arguments, List.singleton_append,
      flagged_cons (attached_ne (by cases name <;> decide)), plain]
    rfl
  | positional => cases admitted
  | terminator => cases admitted

inductive Orderly : List Item → Prop
  | nil : Orderly []
  | terminator : Orderly [.terminator]
  | cons {item : Item} {items : List Item} : item.Admitted → Orderly items → Orderly (item :: items)

namespace Orderly

theorem flagged_eq (orderly : Orderly items) :
    flagged (items.flatMap Item.arguments) = items.filterMap Item.counter? := by
  induction orderly with
  | nil => rfl
  | terminator => exact flagged_terminator
  | @cons item items admitted _ ih =>
    rw [List.flatMap_cons, admitted.flagged_append, ih, List.filterMap_cons]
    cases item.counter? <;> rfl

theorem admitted (orderly : Orderly items) (listed : item ∈ items) :
    item.Admitted ∨ item = .terminator := by
  induction orderly with
  | nil => cases listed
  | terminator => exact .inr (List.mem_singleton.1 listed)
  | cons admitted _ ih =>
    rcases List.mem_cons.1 listed with rfl | later
    · exact .inl admitted
    · exact ih later

theorem admitted_of_ne (orderly : Orderly items) (listed : item ∈ items)
    (other : item ≠ .terminator) : item.Admitted :=
  (orderly.admitted listed).resolve_right other

theorem ended (orderly : Orderly items) {before after : List Item}
    (split : items = before ++ .terminator :: after) : after = [] := by
  induction orderly generalizing before with
  | nil => simp at split
  | terminator =>
    cases before with
    | nil => exact (List.cons.inj split).2.symm
    | cons => simp at split
  | cons admitted _ ih =>
    cases before with
    | nil =>
      obtain ⟨rfl, -⟩ := List.cons.inj split
      cases admitted
    | cons => exact ih (List.cons.inj split).2

theorem append (admitted : ∀ item ∈ items, item.Admitted) {closing : List Item}
    (orderly : Orderly closing) : Orderly (items ++ closing) := by
  induction items with
  | nil => exact orderly
  | cons item items ih =>
    obtain ⟨first, later⟩ := List.forall_mem_cons.1 admitted
    exact .cons first (ih later)

end Orderly

namespace Matches.Documented

theorem admitted (documented : found.Documented argv) (seen : item ∈ found.seen)
    (other : item ≠ .terminator) : item.Admitted := by
  cases item with
  | counter c value => exact documented.plain c value seen
  | separate name value => exact documented.separate name value seen
  | attached => trivial
  | positional argument => exact documented.positional argument seen
  | terminator => exact other rfl

theorem orderly (documented : found.Documented argv) : Orderly found.seen := by
  by_cases ends : .terminator ∈ found.seen
  · obtain ⟨before, after, split, first⟩ := List.eq_append_cons_of_mem ends
    have nothing : after = [] := by
      rw [List.eq_nil_iff_forall_not_mem]
      intro item later
      obtain ⟨argument, rfl⟩ := documented.ended before after split item later
      exact documented.positional argument (by simp [split, later])
    rw [split, nothing]
    refine .append (fun item early => documented.admitted (by simp [split, early]) ?_) .terminator
    rintro rfl
    exact first early
  · have all : Orderly (found.seen ++ []) :=
      .append (fun item seen => documented.admitted seen fun same => ends (same ▸ seen)) .nil
    rwa [List.append_nil] at all

theorem selection_eq (documented : found.Documented argv) :
    selection argv = found.seen.filterMap Item.counter? := by
  rw [selection, documented.spelled, documented.orderly.flagged_eq]

end Matches.Documented

end Command

end IppCode
