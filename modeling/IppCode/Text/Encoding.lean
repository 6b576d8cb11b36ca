/-!
# UTF-8

The bytes of a text, the text of bytes, and the order of texts by their bytes. Names and arguments
come from the system as bytes, which need not be text; they are displayed with replacements.
-/

namespace IppCode

/-- What the system hands over as a name or an argument. -/
abbrev RawText := List UInt8

namespace Text

def bytes (text : String) : List UInt8 := text.toList.flatMap String.utf8EncodeChar

/-- The text of which these bytes are the encoding, if there is one. -/
def ofBytes? (encoded : List UInt8) : Option String := String.fromUTF8? ⟨encoded.toArray⟩

/-- Texts are ordered as their encodings are, byte by byte. -/
def precedes (a b : String) : Bool := decide (bytes a < bytes b)

/-- The range of the second byte of a character by its first one, and how many bytes follow them. -/
def following? (first : UInt8) : Option (UInt8 × UInt8 × Nat) :=
  if 0xC2 ≤ first ∧ first ≤ 0xDF then some (0x80, 0xBF, 0)
  else if first = 0xE0 then some (0xA0, 0xBF, 1)
  else if first = 0xED then some (0x80, 0x9F, 1)
  else if 0xE1 ≤ first ∧ first ≤ 0xEF then some (0x80, 0xBF, 1)
  else if first = 0xF0 then some (0x90, 0xBF, 2)
  else if 0xF1 ≤ first ∧ first ≤ 0xF3 then some (0x80, 0xBF, 2)
  else if first = 0xF4 then some (0x80, 0x8F, 2)
  else none

/-- How many bytes after a first one could belong to the same character. -/
def continued (first : UInt8) (rest : List UInt8) : Nat :=
  match following? first, rest with
  | some (low, high, more), second :: others =>
    if low ≤ second ∧ second ≤ high then
      1 + ((others.take more).takeWhile fun b => 0x80 ≤ b ∧ b ≤ 0xBF).length
    else 0
  | _, _ => 0

/-- Characters, with a replacement for every byte that begins none and for a beginning without an
end. -/
def replaced : List UInt8 → List Char
  | [] => []
  | first :: rest =>
    let n := continued first rest
    let c := (ofBytes? (first :: rest.take n)).bind (·.toList.head?)
    c.getD '\ufffd' :: replaced (rest.drop n)
termination_by encoded => encoded.length

def display (name : RawText) : String :=
  match ofBytes? name with
  | some text => text
  | none => String.ofList (replaced name)

end Text

end IppCode
