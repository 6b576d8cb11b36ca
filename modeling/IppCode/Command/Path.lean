import IppCode.Text.Encoding
import IppCode.Text.Split

/-!
# Paths

A path leads over names from the working directory, or from the root, to a place in the file tree.
The tree has no links, so a step to the parent undoes a step down.
-/

namespace IppCode.Command

/-- A directory that needs no name to be reached. -/
inductive Anchor where
  | root
  /-- The working directory at no levels, and its parents. -/
  | above (levels : Nat)
deriving DecidableEq

/-- Where a file or a directory is, or could be: the names that lead down from an anchor. -/
structure Place where
  anchor : Anchor
  names : List RawText
deriving DecidableEq

namespace Place

/-- The directory around a place. The root lies in itself. -/
def parent (place : Place) : Place :=
  match place.names, place.anchor with
  | [], .above levels => ⟨.above (levels + 1), []⟩
  | [], .root => place
  | names, anchor => ⟨anchor, names.dropLast⟩

def enter (place : Place) (part : RawText) : Place :=
  if part = Text.bytes "." then place
  else if part = Text.bytes ".." then place.parent
  else { place with names := place.names ++ [part] }

/-- Whether another place is this one or lies below it. -/
def reaches (place other : Place) : Bool :=
  place.anchor == other.anchor && place.names.isPrefixOf other.names

def longestName : Nat := 255

def isOverlong (place : Place) : Bool :=
  place.names.any fun name => decide (longestName < name.length)

end Place

/-- Why a path does not lead to what is wanted. -/
inductive PathError where
  | notFound
  | notDirectory
  | isDirectory
  | nameTooLong
deriving DecidableEq

def PathError.message : PathError → String
  | notFound => "No such file or directory (os error 2)"
  | notDirectory => "Not a directory (os error 20)"
  | isDirectory => "Is a directory (os error 21)"
  | nameTooLong => "File name too long (os error 36)"

/-- A path that ends in a slash can only be a directory. -/
structure Path where
  start : Place
  parts : List RawText
  asDirectory : Bool
deriving DecidableEq

namespace Path

def longest : Nat := 4095

def slash : UInt8 := 47

/-- Read a path. Slashes that follow each other count as one. -/
def ofBytes (path : RawText) : Except PathError Path :=
  if path.isEmpty then .error .notFound
  else if longest < path.length then .error .nameTooLong
  else
    let parts := Text.splitAll (· == slash) path
    let anchor := if parts.head? = some [] then .root else .above 0
    .ok ⟨⟨anchor, []⟩, parts.filter (!·.isEmpty), parts.getLast? == some []⟩

/-- The place that a path leads to if all directories on the way exist. -/
def place (path : Path) : Place := path.parts.foldl Place.enter path.start

end Path

end IppCode.Command
