import IppCode.Command.Path
import IppCode.Command.Session

/-!
# A directory to run in

Surroundings of a session as a value: files and directories, the standard input, and what was
written to the standard streams. Only paths can be wrong here. Permissions, devices and other
reasons for which an operation fails are left to other hosts.
-/

namespace IppCode.Command

inductive Node where
  | file (content : List UInt8)
  | directory
deriving DecidableEq

/-- What exists, except for the directories that the existing places imply. -/
structure World where
  nodes : List (Place × Node)
  stdin : List UInt8
  stdout : List UInt8
  stderr : List UInt8
deriving DecidableEq

namespace World

/-- Nodes under the paths that name them, with nothing written yet. -/
def containing (named : List (String × Node)) (stdin : List UInt8) : World where
  nodes := named.filterMap fun (name, node) =>
    (Path.ofBytes (Text.bytes name)).toOption.map fun path => (path.place, node)
  stdin := stdin
  stdout := []
  stderr := []

/-- The node at a place. Anchors are directories, and every node lies in a directory. -/
def node? (w : World) (place : Place) : Option Node :=
  if place.names.isEmpty then some .directory
  else
    match w.nodes.lookup place with
    | some node => some node
    | none => if w.nodes.any fun entry => place.reaches entry.1 then some .directory else none

def look (w : World) (place : Place) : Except PathError (Option Node) :=
  if place.isOverlong then .error .nameTooLong else .ok (w.node? place)

/-- Follow the parts of a path. A step can only be taken from a directory. -/
def walk (w : World) (place : Place) : List RawText → Except PathError Place
  | [] => .ok place
  | part :: rest =>
    match w.look place with
    | .error e => .error e
    | .ok none => .error .notFound
    | .ok (some (.file _)) => .error .notDirectory
    | .ok (some .directory) => w.walk (place.enter part) rest

def find (w : World) (name : RawText) : Except PathError Node := do
  let path ← Path.ofBytes name
  match ← w.look (← w.walk path.start path.parts) with
  | none => .error .notFound
  | some .directory => .ok .directory
  | some (.file content) => if path.asDirectory then .error .notDirectory else .ok (.file content)

/-- Set the contents of the file at a place, which is made if it does not exist. -/
def put (w : World) (place : Place) (content : List UInt8) : Except PathError World := do
  match ← w.look place with
  | some .directory => .error .isDirectory
  | some (.file _) =>
    .ok { w with
      nodes := w.nodes.map fun entry =>
        if entry.1 = place then (place, .file content) else entry }
  | none => .ok { w with nodes := w.nodes ++ [(place, .file content)] }

def save (w : World) (name : RawText) (content : List UInt8) : Except PathError World := do
  let path ← Path.ofBytes name
  let place ← w.walk path.start path.parts
  if path.asDirectory then .error .isDirectory else w.put place content

def read (w : World) (name : RawText) : Except PathError (List UInt8) := do
  match ← w.find name with
  | .file content => .ok content
  | .directory => .error .isDirectory

def content (w : World) (name : String) : Except PathError (List UInt8) :=
  w.read (Text.bytes name)

/-- A directory can be opened as input, but the first read fails. -/
def input (w : World) (name : RawText) : Except PathError Input := do
  match ← w.find name with
  | .file content => .ok ⟨content, none⟩
  | .directory => .ok ⟨[], some PathError.isDirectory.message⟩

end World

instance : Host (StateM World) where
  readSource file w :=
    match file with
    | some file => ((w.read file).mapError PathError.message, w)
    | none => (.ok w.stdin, { w with stdin := [] })
  openInput file w :=
    match file with
    | some file => ((w.input file).mapError PathError.message, w)
    | none => (.ok ⟨w.stdin, none⟩, { w with stdin := [] })
  saveReport file text w :=
    match w.save file (Text.bytes text) with
    | .ok w => (.ok (), w)
    | .error e => (.error e.message, w)
  writeOutput bytes w := ((), { w with stdout := w.stdout ++ bytes })
  writeDiagnostics bytes w := ((), { w with stderr := w.stderr ++ bytes })

end IppCode.Command
