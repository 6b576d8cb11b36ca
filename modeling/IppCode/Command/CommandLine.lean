import IppCode.Statistics
import IppCode.Text.Encoding

/-!
# Command lines

The options of a command are found by an argument parser, which can be any that keeps to what is
documented of it (`ArgumentParser.Documented`). A parser does not tell in which order it saw flags
that differ, so the selection of counters is read off the arguments once more.
-/

namespace IppCode

namespace Counter

def flag : Counter → String
  | executed => "--insts"
  | hottest => "--hot"
  | peak => "--vars"

def ofFlag? : String → Option Counter
  | "--insts" => some executed
  | "--hot" => some hottest
  | "--vars" => some peak
  | _ => none

end Counter

namespace Command

inductive FileOption where
  | source
  | input
  | stats
deriving DecidableEq

def FileOption.flag : FileOption → String
  | source => "--source"
  | input => "--input"
  | stats => "--stats"

/-! ## Parsers -/

/-- What a parser takes an argument for, or two of them. -/
inductive Item where
  | counter (c : Counter) (value : Option RawText)
  | separate (name : FileOption) (value : RawText)
  /-- The value follows the flag and an equals sign. -/
  | attached (name : FileOption) (value : RawText)
  | positional (argument : RawText)
  | terminator
deriving DecidableEq

namespace Item

def arguments : Item → List RawText
  | counter c none => [Text.bytes c.flag]
  | counter c (some value) => [Text.bytes (c.flag ++ "=") ++ value]
  | separate name value => [Text.bytes name.flag, value]
  | attached name value => [Text.bytes (name.flag ++ "=") ++ value]
  | positional argument => [argument]
  | terminator => [Text.bytes "--"]

def counter? : Item → Option Counter
  | counter c _ => some c
  | _ => none

def file? : Item → Option (FileOption × RawText)
  | separate name value | attached name value => some (name, value)
  | _ => none

end Item

/-- The files that a parser found, and all that it saw, from left to right. -/
structure Matches where
  source : Option RawText
  input : Option RawText
  stats : Option RawText
  seen : List Item
deriving DecidableEq

def Matches.file? (found : Matches) : FileOption → Option RawText
  | .source => found.source
  | .input => found.input
  | .stats => found.stats

inductive Parsed where
  /-- Help or the version, which goes to the standard output. -/
  | shown (text : String)
  /-- Why the arguments make no sense. -/
  | refused (text : String)
  | matched (found : Matches)

/-- The first argument is the name of the program. -/
abbrev ArgumentParser := List RawText → Parsed

/-- What is documented of the command line. -/
structure Matches.Documented (found : Matches) (argv : List RawText) : Prop where
  spelled : argv.drop 1 = found.seen.flatMap Item.arguments
  files : ∀ name value,
    found.file? name = some value ↔ (name, value) ∈ found.seen.filterMap Item.file?
  /-- All arguments after the end of the options are positional. -/
  ended : ∀ before after, found.seen = before ++ .terminator :: after →
    ∀ item ∈ after, ∃ argument, item = .positional argument
  /-- A separate value does not begin with two dashes. -/
  separate : ∀ name value, .separate name value ∈ found.seen → ¬ Text.bytes "--" <+: value
  /-- The flag of a counter takes no value. -/
  plain : ∀ c value, .counter c value ∈ found.seen → value = none
  /-- There are no positional arguments. -/
  positional : ∀ argument, .positional argument ∉ found.seen
  /-- An option is given once at most. -/
  once : ((found.seen.filterMap Item.file?).map Prod.fst).Nodup

def ArgumentParser.Documented (parser : ArgumentParser) : Prop :=
  ∀ argv found, parser argv = .matched found → found.Documented argv

/-! ## Configurations -/

/-- The counter that an argument is the flag of. An argument that is not text counts as empty. -/
def flagged? (argument : RawText) : Option Counter :=
  Counter.ofFlag? ((Text.ofBytes? argument).getD "")

/-- The counters of the flags among arguments, up to the end of the options. -/
def flagged (arguments : List RawText) : List Counter :=
  (arguments.takeWhile fun argument => Text.ofBytes? argument != some "--").filterMap flagged?

def selection (argv : List RawText) : List Counter := flagged (argv.drop 1)

structure Report where
  file : RawText
  selection : List Counter
deriving DecidableEq

/-- What a run works on. A file that is not named is the standard input. -/
structure Config where
  source : Option RawText
  input : Option RawText
  report : Option Report
deriving DecidableEq

inductive Refusal where
  | usage (text : String)
  | nothingToRead
  | countersWithoutFile
deriving DecidableEq

def Refusal.message : Refusal → String
  | usage text => text
  | nothingToRead => "ERROR: at least one of --source or --input must be set\n"
  | countersWithoutFile => "ERROR: --insts, --hot and --vars require --stats\n"

def Matches.config (found : Matches) (selected : List Counter) : Except Refusal Config :=
  if found.source.isNone ∧ found.input.isNone then .error .nothingToRead
  else
    match found.stats with
    | some file => .ok ⟨found.source, found.input, some ⟨file, selected⟩⟩
    | none =>
      if selected.isEmpty then .ok ⟨found.source, found.input, none⟩
      else .error .countersWithoutFile

inductive Invocation where
  | print (text : String)
  | run (config : Config)
deriving DecidableEq

def Invocation.ofArguments (parser : ArgumentParser) (argv : List RawText) :
    Except Refusal Invocation :=
  match parser argv with
  | .shown text => .ok (.print text)
  | .refused text => .error (.usage text)
  | .matched found => (found.config (selection argv)).map .run

end Command

end IppCode
