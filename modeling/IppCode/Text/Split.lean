import IppCode.Text.Blank

/-!
# Words and lines

The words of a text are separated by blanks; a line ends at a line feed.
-/

namespace IppCode.Text

/-- Put a character in front of the first part, which it starts if there is none. -/
def consFirst {α : Type} (a : α) : List (List α) → List (List α)
  | [] => [[a]]
  | part :: parts => (a :: part) :: parts

/-- The parts between the separators, of which there is always one more than separators. -/
def splitAll {α : Type} (separates : α → Bool) (text : List α) : List (List α) :=
  text.foldr (fun c parts => if separates c then [] :: parts else consFirst c parts) [[]]

/-- The maximal runs of characters that are not blank. -/
def words (text : List Char) : List (List Char) :=
  (splitAll isBlank text).filter fun part => !part.isEmpty

/-- The lines without their line feeds. The text after the last line feed is a line unless it is
empty. -/
def lines (text : List Char) : List (List Char) :=
  text.foldr (fun c rest => if c = '\n' then [] :: rest else consFirst c rest) []

/-- The parts before and after the first occurrence of a character. -/
def splitFirst? (mark : Char) : List Char → Option (List Char × List Char)
  | [] => none
  | c :: rest =>
    if c = mark then some ([], rest)
    else (splitFirst? mark rest).map fun (before, after) => (c :: before, after)

end IppCode.Text
