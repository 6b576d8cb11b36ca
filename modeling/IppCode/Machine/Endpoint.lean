import IppCode.Text.Encoding

/-!
# Input and output of a run

A sink takes bytes and may fail at any time. An input hands out lines until it ends or breaks.

Three things are left out: an input that fails once and then goes on, an input whose failure says
that its bytes are no text (only lines that are no text are known), and the number of pieces in
which a sink is given one text.
-/

namespace IppCode

/-- What bytes can be written to. Both operations may report a failure in words. -/
class Sink (σ : Type) where
  write : σ → List UInt8 → σ × Option String
  flush : σ → σ × Option String

/-- A sink that keeps what it is given while there is room. -/
structure Buffer where
  /-- The bytes kept, the last one first. -/
  kept : List UInt8
  /-- How many bytes more can be kept, if there is a limit. -/
  room : Option Nat
  flushFailure : Option String
deriving DecidableEq

namespace Buffer

/-- A sink that never fails. -/
def unbounded : Buffer := ⟨[], none, none⟩

def bytes (b : Buffer) : List UInt8 := b.kept.reverse

def keep (b : Buffer) (chunk : List UInt8) : Buffer :=
  { b with
    kept := chunk.reverse ++ b.kept
    room := b.room.map (· - chunk.length) }

/-- Keep the first bytes for which there is room. It is a failure if that is not all of them. -/
def write (b : Buffer) (chunk : List UInt8) : Buffer × Option String :=
  match b.room with
  | none => (b.keep chunk, none)
  | some room =>
    if chunk.length ≤ room then (b.keep chunk, none)
    else (b.keep (chunk.take room), some "sink full")

instance : Sink Buffer where
  write := Buffer.write
  flush b := (b, b.flushFailure)

end Buffer

/-- The bytes that are still to be read, and the failure that follows them, if they do not simply
end. -/
structure Input where
  rest : List UInt8
  failure : Option String
deriving DecidableEq

namespace Input

def lineFeed : UInt8 := 10

def carriageReturn : UInt8 := 13

/-- A line without its line feed, and without a carriage return in front of that. -/
def stripEnd (chunk : List UInt8) : List UInt8 :=
  if chunk.getLast? = some lineFeed then
    let line := chunk.dropLast
    if line.getLast? = some carriageReturn then line.dropLast else line
  else chunk

/-- The bytes up to and including the first line feed, and the bytes after them. -/
def nextChunk (bytes : List UInt8) : List UInt8 × List UInt8 :=
  let line := bytes.takeWhile (· != lineFeed)
  match bytes.dropWhile (· != lineFeed) with
  | [] => (line, [])
  | feed :: rest => (line ++ [feed], rest)

/-- The next line, which is consumed even if it is no text. A line that the input breaks in fails,
and so does a read after the last line of an input that breaks. -/
def readLine (input : Input) : Input × Except String (Option String) :=
  let (chunk, rest) := nextChunk input.rest
  let consumed := { input with rest }
  if chunk.getLast? = some lineFeed then (consumed, .ok (Text.ofBytes? (stripEnd chunk)))
  else
    match input.failure with
    | some text => (consumed, .error text)
    | none => (consumed, .ok (if chunk.isEmpty then none else Text.ofBytes? chunk))

end Input

end IppCode
