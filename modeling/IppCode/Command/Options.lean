import IppCode.Command.CommandLine

/-!
# The argument parser

Arguments are read from left to right. The first one that asks for help or the version, or that
makes no sense, settles the matter. Complaints are worded in a way of its own.
-/

namespace IppCode.Command

def FileOption.all : List FileOption := [source, input, stats]

inductive UsageError where
  | unknownFlag (argument : RawText)
  | unexpectedArgument (argument : RawText)
  | missingValue (name : FileOption)
  | unexpectedValue (argument : RawText)
  | repeated (name : FileOption)
deriving DecidableEq

def UsageError.message : UsageError → String
  | unknownFlag argument => s!"unknown flag '{Text.display argument}'"
  | unexpectedArgument argument => s!"unexpected argument '{Text.display argument}'"
  | missingValue name => s!"a value is required for '{name.flag} <FILE>'"
  | unexpectedValue argument => s!"no value is allowed in '{Text.display argument}'"
  | repeated name => s!"'{name.flag} <FILE>' cannot be used more than once"

inductive Word where
  | terminator
  | help
  | version
  | file (name : FileOption)
  | fileValue (name : FileOption) (value : RawText)
  | counter (c : Counter)
  | invalid (e : UsageError)
deriving DecidableEq

/-- What follows a flag and an equals sign. -/
def attached? (flag : String) (argument : RawText) : Option RawText :=
  let start := Text.bytes (flag ++ "=")
  if start.isPrefixOf argument then some (argument.drop start.length) else none

/-- A dash and a letter ask for help or the version whatever letters follow. -/
def shortFlags (argument : RawText) : Word :=
  if (Text.bytes "-h").isPrefixOf argument then .help
  else if (Text.bytes "-V").isPrefixOf argument then .version
  else if (Text.bytes "-").isPrefixOf argument ∧ 1 < argument.length then
    .invalid (.unknownFlag argument)
  else .invalid (.unexpectedArgument argument)

def flagsWithoutValue : List (String × Word) :=
  [("--help", .help), ("--version", .version), ("--insts", .counter .executed),
    ("--hot", .counter .hottest), ("--vars", .counter .peak)]

def longFlag (argument : RawText) : Word :=
  match flagsWithoutValue.find? fun entry => Text.bytes entry.1 == argument with
  | some (_, word) => word
  | none =>
    match FileOption.all.find? fun name => Text.bytes name.flag == argument with
    | some name => .file name
    | none =>
      match FileOption.all.findSome? fun name => (attached? name.flag argument).map (name, ·) with
      | some (name, value) =>
        if value.isEmpty then .invalid (.missingValue name) else .fileValue name value
      | none =>
        if flagsWithoutValue.any fun entry => (attached? entry.1 argument).isSome then
          .invalid (.unexpectedValue argument)
        else .invalid (.unknownFlag argument)

def Word.ofArgument (argument : RawText) : Word :=
  if argument = Text.bytes "--" then .terminator
  else if (Text.bytes "--").isPrefixOf argument then longFlag argument
  else shortFlags argument

/-- A separate value is not empty and does not look like a flag. A single dash is a value. -/
def isSeparateValue (argument : RawText) : Bool :=
  !argument.isEmpty && (!(Text.bytes "-").isPrefixOf argument || argument.length == 1)

inductive Request where
  | help
  | version
  | options (found : Matches)
deriving DecidableEq

namespace Matches

def initial : Matches := ⟨none, none, none, []⟩

def see (found : Matches) (item : Item) : Matches := { found with seen := found.seen ++ [item] }

def setFile (found : Matches) (name : FileOption) (value : RawText) : Matches :=
  match name with
  | .source => { found with source := value }
  | .input => { found with input := value }
  | .stats => { found with stats := value }

/-- Note the value of an option, which must be the first one. -/
def setOnce (found : Matches) (name : FileOption) (value : RawText) (item : Item) :
    Except UsageError Matches :=
  if (found.file? name).isSome then .error (.repeated name)
  else .ok ((found.setFile name value).see item)

/-- Read arguments after others in which some options were found. -/
def read (found : Matches) : List RawText → Except UsageError Request
  | [] => .ok (.options found)
  | argument :: rest =>
    match Word.ofArgument argument with
    | .terminator =>
      match rest with
      | [] => .ok (.options (found.see .terminator))
      | extra :: _ => .error (.unexpectedArgument extra)
    | .help => .ok .help
    | .version => .ok .version
    | .counter c => (found.see (.counter c none)).read rest
    | .invalid e => .error e
    | .fileValue name value =>
      match found.setOnce name value (.attached name value) with
      | .ok found => found.read rest
      | .error e => .error e
    | .file name =>
      match rest with
      | value :: rest =>
        if isSeparateValue value then
          match found.setOnce name value (.separate name value) with
          | .ok found => found.read rest
          | .error e => .error e
        else .error (.missingValue name)
      | [] => .error (.missingValue name)

end Matches

def versionText : String := "ippvm 0.1.0\n"

def helpText : String :=
  "Execute IPPcode22 programs\n" ++
  "\n" ++
  "Usage: ippvm [OPTIONS]\n" ++
  "\n" ++
  "Options:\n" ++
  "      --source <FILE>  IPPcode22 source file\n" ++
  "      --input <FILE>   File that READ takes its lines from\n" ++
  "      --stats <FILE>   File to write the selected statistics to\n" ++
  "      --insts...       Report the number of executed instructions\n" ++
  "      --hot...         Report the order of the most executed instruction\n" ++
  "      --vars...        Report the peak number of declared variables\n" ++
  "  -h, --help           Print help\n" ++
  "  -V, --version        Print version\n" ++
  "\n" ++
  "At least one of --source and --input must be given; the other is read from stdin.\n"

def readArguments : ArgumentParser := fun argv =>
  match Matches.initial.read (argv.drop 1) with
  | .error e => .refused s!"error: {e.message}\n"
  | .ok .help => .shown helpText
  | .ok .version => .shown versionText
  | .ok (.options found) => .matched found

end IppCode.Command
