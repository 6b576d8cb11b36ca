import IppCode.Source.Load

/-!
# Canonical source text

The header and one instruction per line, with single spaces and capital mnemonics. Orders are not
written.
-/

namespace IppCode.Source

def render (p : Program) : String :=
  String.join ((header :: p.instructions.toList.map Instruction.display).map (· ++ "\n"))

end IppCode.Source
