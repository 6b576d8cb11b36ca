import IppCode.Proofs.Command.Options

/-!
# The selection of counters

Two passes go over the arguments: a parser, which knows flags from values, and a plain scan for the
flags of counters. They agree on all arguments that a documented parser accepts
(`selection_scanned`).
-/

namespace IppCode.Command

variable {parser : ArgumentParser} {argv : List RawText} {found : Matches} {config : Config}
  {selected : List Counter} {name : FileOption} {argument value : RawText} {item : Item}

/-- The flag stands among the arguments, by itself or in front of an equals sign. -/
def Mentions (argv : List RawText) (name : FileOption) : Prop :=
  Text.bytes name.flag ∈ argv.drop 1 ∨
    ∃ value, Text.bytes (name.flag ++ "=") ++ value ∈ argv.drop 1

theorem Mentions.exists_prefix (mentions : Mentions argv name) :
    ∃ argument ∈ argv.drop 1, Text.bytes name.flag <+: argument := by
  rcases mentions with flag | ⟨value, attached⟩
  · exact ⟨_, flag, List.prefix_refl _⟩
  · have split : Text.bytes (name.flag ++ "=") = Text.bytes name.flag ++ Text.bytes "=" := by
      simp [Text.bytes]
    refine ⟨_, attached, ?_⟩
    rw [split, List.append_assoc]
    exact List.prefix_append _ _

theorem eq_of_flag_prefix {other : FileOption}
    (starts : Text.bytes name.flag <+: Text.bytes other.flag) : other = name := by
  revert starts
  cases name <;> cases other <;> decide

theorem Item.file?_of_prefix (own : argument ∈ item.arguments)
    (usual : item.Admitted ∨ item = .terminator) (starts : Text.bytes name.flag <+: argument) :
    ∃ value, item.file? = some (name, value) := by
  rcases usual with admitted | rfl
  · cases item with
    | counter c value =>
      obtain rfl : value = none := admitted
      obtain rfl : argument = Text.bytes c.flag := List.mem_singleton.1 own
      exact absurd starts (by cases name <;> cases c <;> decide)
    | separate other value =>
      have apart : value ≠ argument := by
        rintro rfl
        have dashes : Text.bytes "--" <+: Text.bytes name.flag := by cases name <;> decide
        exact admitted (dashes.trans starts)
      rcases List.mem_cons.1 own with rfl | here
      · exact ⟨value, eq_of_flag_prefix starts ▸ rfl⟩
      · exact absurd (List.mem_singleton.1 here).symm apart
    | attached other value =>
      obtain rfl : argument = Text.bytes (other.flag ++ "=") ++ value := List.mem_singleton.1 own
      have flag : Text.bytes other.flag <+: Text.bytes (other.flag ++ "=") ++ value := by
        simp [Text.bytes]
      rcases List.prefix_or_prefix_of_prefix starts flag with shorter | longer
      · exact ⟨value, eq_of_flag_prefix shorter ▸ rfl⟩
      · exact ⟨value, eq_of_flag_prefix longer ▸ rfl⟩
    | positional | terminator => cases admitted
  · obtain rfl : argument = Text.bytes "--" := List.mem_singleton.1 own
    exact absurd starts (by cases name <;> decide)

namespace Matches.Documented

theorem mentions (documented : found.Documented argv) (given : found.file? name = some value) :
    Mentions argv name := by
  obtain ⟨item, seen, file⟩ := List.mem_filterMap.1 ((documented.files name value).1 given)
  have spelt {argument : RawText} (own : argument ∈ item.arguments) : argument ∈ argv.drop 1 :=
    documented.spelled ▸ List.mem_flatMap.2 ⟨item, seen, own⟩
  cases item with
  | separate =>
    cases file
    exact .inl (spelt List.mem_cons_self)
  | attached =>
    cases file
    exact .inr ⟨value, spelt (List.mem_singleton_self _)⟩
  | counter | positional | terminator => cases file

theorem mentions_iff (documented : found.Documented argv) :
    Mentions argv name ↔ ∃ value, found.file? name = some value := by
  constructor
  · intro mentioned
    obtain ⟨argument, given, starts⟩ := mentioned.exists_prefix
    rw [documented.spelled] at given
    obtain ⟨item, seen, own⟩ := List.mem_flatMap.1 given
    obtain ⟨value, file⟩ := item.file?_of_prefix own (documented.orderly.admitted seen) starts
    exact ⟨value, (documented.files name value).2 (List.mem_filterMap.2 ⟨item, seen, file⟩)⟩
  · rintro ⟨value, given⟩
    exact documented.mentions given

end Matches.Documented

theorem Matches.config_eq_ok : found.config selected = .ok config ↔
    (found.source.isSome ∨ found.input.isSome) ∧ (found.stats = none → selected = []) ∧
      config = ⟨found.source, found.input, found.stats.map fun file => ⟨file, selected⟩⟩ := by
  unfold Matches.config
  cases source : found.source <;> cases input : found.input <;> cases stats : found.stats <;>
    cases selected <;> simp [eq_comm (a := config)]

theorem matched_of_run (ok : Invocation.ofArguments parser argv = .ok (.run config)) :
    ∃ found, parser argv = .matched found ∧ found.config (selection argv) = .ok config := by
  unfold Invocation.ofArguments at ok
  split at ok
  · cases ok
  · cases ok
  · rename_i found parsed
    refine ⟨found, parsed, ?_⟩
    cases made : found.config (selection argv) with
    | error refusal =>
      rw [made] at ok
      cases ok
    | ok made' =>
      rw [made] at ok
      cases ok
      rfl

theorem run_of_unshown (unshown : ∀ text, parser argv ≠ .shown text) {invocation : Invocation}
    (ok : Invocation.ofArguments parser argv = .ok invocation) :
    ∃ config, invocation = .run config := by
  unfold Invocation.ofArguments at ok
  split at ok
  · rename_i text shown
    exact absurd shown (unshown text)
  · cases ok
  · rename_i found parsed
    cases made : found.config (selection argv) with
    | error refusal =>
      rw [made] at ok
      cases ok
    | ok config =>
      rw [made] at ok
      cases ok
      exact ⟨config, rfl⟩

theorem refused_of_not_run (unshown : ∀ text, parser argv ≠ .shown text)
    (never : ∀ config, Invocation.ofArguments parser argv ≠ .ok (.run config)) :
    ∃ refusal, Invocation.ofArguments parser argv = .error refusal := by
  cases made : Invocation.ofArguments parser argv with
  | error refusal => exact ⟨refusal, rfl⟩
  | ok invocation =>
    obtain ⟨config, rfl⟩ := run_of_unshown unshown made
    exact absurd made (never config)

theorem flagged_arguments (documented : found.Documented argv) {item : Item}
    (seen : item ∈ found.seen) : flagged item.arguments = item.counter?.toList := by
  rcases documented.orderly.admitted seen with admitted | rfl
  · have alone : flagged (item.arguments ++ []) = item.counter?.toList ++ [] :=
      admitted.flagged_append
    rwa [List.append_nil, List.append_nil] at alone
  · exact flagged_terminator

/-- The scan selects the counters that the parser saw, in their order, and finds none in the values
of options, and the options that the parser found stand among the arguments. A run has these files
and reports this selection. Counters without a file for them are rejected, and so are arguments
without a source and an input. -/
theorem selection_scanned (documented : parser.Documented) (argv : List RawText) :
    (∀ found, parser argv = .matched found →
      selection argv = found.seen.filterMap Item.counter? ∧
      (∀ item ∈ found.seen, flagged item.arguments = item.counter?.toList) ∧
      ∀ name, Mentions argv name ↔ ∃ file, found.file? name = some file) ∧
    (∀ config, Invocation.ofArguments parser argv = .ok (.run config) →
      ∃ found, parser argv = .matched found ∧ config.source = found.source ∧
        config.input = found.input ∧
        config.report = found.stats.map fun file => ⟨file, found.seen.filterMap Item.counter?⟩) ∧
    ((∀ text, parser argv ≠ .shown text) → selection argv ≠ [] → ¬ Mentions argv .stats →
      ∃ refusal, Invocation.ofArguments parser argv = .error refusal) ∧
    ((∀ text, parser argv ≠ .shown text) → ¬ Mentions argv .source → ¬ Mentions argv .input →
      ∃ refusal, Invocation.ofArguments parser argv = .error refusal) := by
  refine ⟨fun found parsed => ?_, fun config ok => ?_, fun unshown counters unnamed => ?_,
    fun unshown noSource noInput => ?_⟩
  · have agrees := documented argv found parsed
    exact ⟨agrees.selection_eq, fun item => flagged_arguments agrees,
      fun name => agrees.mentions_iff⟩
  · obtain ⟨found, parsed, made⟩ := matched_of_run ok
    obtain ⟨-, -, rfl⟩ := Matches.config_eq_ok.1 made
    rw [(documented argv found parsed).selection_eq]
    exact ⟨found, parsed, rfl, rfl, rfl⟩
  · refine refused_of_not_run unshown fun config ok => ?_
    obtain ⟨found, parsed, made⟩ := matched_of_run ok
    obtain ⟨-, without, -⟩ := Matches.config_eq_ok.1 made
    have agrees := documented argv found parsed
    cases stats : found.stats with
    | none => exact counters (without stats)
    | some file =>
      have given : found.file? .stats = some file := stats
      exact unnamed (agrees.mentions given)
  · refine refused_of_not_run unshown fun config ok => ?_
    obtain ⟨found, parsed, made⟩ := matched_of_run ok
    obtain ⟨named, -⟩ := Matches.config_eq_ok.1 made
    have agrees := documented argv found parsed
    rcases named with source | input
    · obtain ⟨file, source⟩ := Option.isSome_iff_exists.1 source
      have given : found.file? .source = some file := source
      exact noSource (agrees.mentions given)
    · obtain ⟨file, input⟩ := Option.isSome_iff_exists.1 input
      have given : found.file? .input = some file := input
      exact noInput (agrees.mentions given)

/-- A flag behind an equals sign is a value, and a value need not be text. -/
theorem selection_scanned_value :
    let argv := Text.bytes "ippvm" :: Text.bytes "--vars" :: Text.bytes "--source=--insts" ::
      Text.bytes "--input" :: [0xFF] ::
      ["--stats", "-", "--hot", "--vars", "--"].map Text.bytes
    let uncounted := ["ippvm", "--hot", "--input", "-"].map Text.bytes
    let unread := ["ippvm", "--stats=-"].map Text.bytes
    readArguments.Documented ∧
      readArguments argv = .matched ⟨some (Text.bytes "--insts"), some [0xFF],
        some (Text.bytes "-"), [.counter .peak none, .attached .source (Text.bytes "--insts"),
          .separate .input [0xFF], .separate .stats (Text.bytes "-"), .counter .hottest none,
          .counter .peak none, .terminator]⟩ ∧
      selection argv = [.peak, .hottest, .peak] ∧
      (∃ refusal, Invocation.ofArguments readArguments uncounted = .error refusal) ∧
      ∃ refusal, Invocation.ofArguments readArguments unread = .error refusal := by
  intro argv uncounted unread
  have documented := readArguments_documented
  have parsed : readArguments argv = .matched ⟨_, _, _, [.counter .peak none,
    .attached .source (Text.bytes "--insts"), .separate .input [0xFF],
    .separate .stats (Text.bytes "-"), .counter .hottest none, .counter .peak none,
    .terminator]⟩ := rfl
  have counting : readArguments uncounted = .matched ⟨none, some (Text.bytes "-"), none,
    [.counter .hottest none, .separate .input (Text.bytes "-")]⟩ := rfl
  have saving : readArguments unread = .matched ⟨none, none, some (Text.bytes "-"),
    [.attached .stats (Text.bytes "-")]⟩ := rfl
  have selects := ((selection_scanned documented argv).1 _ parsed).1
  have counters := ((selection_scanned documented uncounted).1 _ counting).1
  refine ⟨documented, parsed, selects, ?_, ?_⟩
  · apply (selection_scanned documented uncounted).2.2.1
    · exact fun text shown => by cases counting.symm.trans shown
    · rw [counters]
      decide
    · exact fun mentions => absurd mentions.exists_prefix (by decide)
  · apply (selection_scanned documented unread).2.2.2
    · exact fun text shown => by cases saving.symm.trans shown
    · exact fun mentions => absurd mentions.exists_prefix (by decide)
    · exact fun mentions => absurd mentions.exists_prefix (by decide)

end IppCode.Command
