import IppCode.Command.Session

/-!
# The command `ippvm`

The arguments and the names of files are text here.
-/

namespace IppCode.Command

def describe (e : IO.Error) : String :=
  match e with
  | .noFileOrDirectory _ code details | .noSuchThing _ code details
  | .inappropriateType _ code details | .permissionDenied _ code details
  | .invalidArgument _ code details | .resourceExhausted _ code details
  | .alreadyExists _ code details => s!"{details} (os error {code})"
  | .otherError code details | .resourceBusy code details | .unsupportedOperation code details
  | .hardwareFault code details | .unsatisfiedConstraints code details
  | .illegalOperation code details | .protocolError code details | .timeExpired code details =>
    s!"{details} (os error {code})"
  | e => toString e

def attempt {α : Type} (action : IO α) : IO (Except String α) := do
  match ← action.toBaseIO with
  | .ok a => return .ok a
  | .error e => return .error (describe e)

partial def readAll (stream : IO.FS.Stream) (read : ByteArray) : IO (List UInt8) := do
  let chunk ← stream.read 65536
  if chunk.isEmpty then return read.toList else readAll stream (read ++ chunk)

/-- Files can be opened here if their names are text. -/
def openNamed (file : RawText) (mode : IO.FS.Mode) : IO IO.FS.Handle :=
  match Text.ofBytes? file with
  | some name => IO.FS.Handle.mk name mode
  | none => throw (IO.userError "the name is not valid UTF-8")

def readFile (file : RawText) : IO (List UInt8) := do
  return (← (← openNamed file .read).readBinToEnd).toList

/-- Open a file for reading. What fails after that fails in the first read. -/
def openFile (file : RawText) : IO Input := do
  let handle ← openNamed file .read
  match ← attempt (handle.readBinToEnd) with
  | .ok bytes => return ⟨bytes.toList, none⟩
  | .error text => return ⟨[], some text⟩

def put (stream : IO.FS.Stream) (bytes : List UInt8) : IO Unit := do
  stream.write ⟨bytes.toArray⟩
  stream.flush

instance : Host IO where
  readSource
    | some file => attempt (readFile file)
    | none => attempt do readAll (← IO.getStdin) .empty
  openInput
    | some file => attempt (openFile file)
    | none => return .ok ⟨← readAll (← IO.getStdin) .empty, none⟩
  saveReport file text := attempt do (← openNamed file .write).putStr text
  writeOutput bytes := do put (← IO.getStdout) bytes
  writeDiagnostics bytes := do put (← IO.getStderr) bytes

/-- More instructions than any run will ever dispatch. -/
def unlimited : Nat := 0x4000000000000000

end IppCode.Command

open IppCode IppCode.Command in
def main (arguments : List String) : IO UInt32 := do
  match ← command arguments unlimited with
  | some code => return code.toUInt32
  | none => return ExitStatus.internalError.code.toUInt32
