import IppCode.Proofs.Source.RoundTrip
import IppCode.Proofs.Verification.Soundness

/-!
# What diagnostics name

A refused source text is reported with one of its words (`Source.isWord_of_refused`). What is
reported of a program, whether it is verified or run, names arguments of its instructions
(`Verification.named_of_mem_errors`, `Machine.Session.named`), whatever the machine holds when the
program fails.
-/

namespace IppCode

namespace Source

def Fault.word? : Fault → Option String
  | unknownOpcode word | unexpectedWord word | invalidArgument _ word => some word
  | missingHeader | missingArgument _ => none

variable {words : List String} {lines : List (Nat × List String)} {fault : Fault} {e : LoadError}
  {word : String}

theorem LeftmostMisfit.mem {shapes : List Shape} {shape : Shape}
    (misfit : LeftmostMisfit shapes words shape word) : word ∈ words := by
  induction misfit with
  | here _ => exact List.mem_cons_self
  | later _ _ ih => exact List.mem_cons_of_mem _ ih

theorem Offends.mem (offends : Offends words fault) (named : word ∈ fault.word?) :
    word ∈ words := by
  cases offends with
  | unknown =>
    obtain rfl := Option.some.inj named
    exact List.mem_cons_self
  | missing => cases named
  | unexpected _ found =>
    obtain rfl := Option.some.inj named
    exact List.mem_cons_of_mem _ (List.mem_of_getElem? found)
  | invalid _ _ misfit =>
    obtain rfl := Option.some.inj named
    exact List.mem_cons_of_mem _ misfit.mem

theorem Reports.mem (reports : Reports lines e) (named : word ∈ e.fault.word?) :
    ∃ line ∈ lines, word ∈ line.2 := by
  induction reports with
  | here offends => exact ⟨_, List.mem_cons_self, offends.mem named⟩
  | later _ _ ih =>
    obtain ⟨line, listed, inside⟩ := ih named
    exact ⟨line, List.mem_cons_of_mem _ listed, inside⟩

theorem isWord_of_refused {text : String} (refused : load text = .error e)
    (named : word ∈ e.fault.word?) : Text.IsWord word.toList := by
  have clean : ∀ line ∈ significantLines text.toList, ∀ word ∈ line.2, Text.IsWord word.toList :=
    fun _ significant _ => isWord_of_significant significant
  have refuses := load_eq_error.1 refused
  generalize significantLines text.toList = significant at clean refuses
  cases refuses with
  | empty | header => cases named
  | line _ reports =>
    obtain ⟨line, listed, inside⟩ := reports.mem named
    exact clean line (List.mem_cons_of_mem _ listed) word inside

end Source

namespace Verification

/-- The arguments that a fault names. -/
def Fault.named : Fault → List Argument
  | argumentShape _ _ _ found => [found]
  | invalidLiteral l => [.literal l]
  | duplicateLabel name | undefinedLabel name => [.label name]
  | zeroOrder | unordered _ _ | argumentCount _ _ => []

variable {p : Program} {k : Nat} {fault : Fault} {e : VerifyError} {a : Argument}

theorem Flaw.named (flaw : Flaw p k fault) (named : a ∈ fault.named) :
    ∃ i ∈ p.instructions, a ∈ i.arguments := by
  cases flaw with
  | zeroOrder | unordered | argumentCount => cases named
  | argumentShape found _ _ given =>
    obtain rfl := List.mem_singleton.1 named
    exact ⟨_, Array.mem_of_getElem? found, List.mem_of_getElem? given⟩
  | invalidLiteral found given =>
    obtain rfl := List.mem_singleton.1 named
    exact ⟨_, Array.mem_of_getElem? found, given⟩
  | duplicateLabel _ _ _ found declared =>
    obtain rfl := List.mem_singleton.1 named
    exact ⟨_, Array.mem_of_getElem? found, Instruction.mem_of_declaredLabel declared⟩
  | undefinedLabel found target =>
    obtain rfl := List.mem_singleton.1 named
    exact ⟨_, Array.mem_of_getElem? found, Instruction.mem_of_branchTarget target⟩

theorem named_of_mem_errors (listed : e ∈ errors p) (named : a ∈ e.fault.named) :
    ∃ i ∈ p.instructions, a ∈ i.arguments := by
  obtain ⟨k, -, flaw⟩ := mem_errors_iff.1 listed
  exact flaw.named named

end Verification

def DecodeError.text : DecodeError → String
  | unknownOpcode text | unknownKind text | invalidVariable text => text
  | duplicateLabel repeated => repeated.name

/-- The arguments that a fault names. -/
def Fault.named : Fault → List Argument
  | malformed _ (.wrongShape _ _ found) => [found]
  | malformed _ (.undecoded e) => [.label e.text]
  | invalidLiteral l => [.literal l]
  | duplicateLabel name | undefinedLabel name => [.label name]
  | frame (.undefined v) | frame (.redefined v) | frame (.uninitialized v) => [.var v]
  | _ => []

section
variable {i : Instruction} {labels : LabelTable} {fault : Fault} {a : Argument}

theorem FrameError.Concerns.named {v : Variable} {e : FrameError} (concerns : e.Concerns v)
    (named : a ∈ (Fault.frame e).named) : a = .var v := by
  cases concerns with
  | missingFrame => cases named
  | undefined | redefined | uninitialized => exact List.mem_singleton.1 named

theorem Raised.named (raised : Raised i labels fault) (named : a ∈ fault.named) :
    a ∈ i.arguments := by
  cases raised with
  | misfit _ misfit =>
    cases misfit with
    | missing => cases named
    | wrongShape given =>
      obtain rfl := List.mem_singleton.1 named
      exact List.mem_of_getElem? given
  | literal given =>
    obtain rfl := List.mem_singleton.1 named
    exact given
  | label target =>
    obtain rfl := List.mem_singleton.1 named
    exact Instruction.mem_of_branchTarget target
  | frame given concerns =>
    obtain rfl := concerns.named named
    exact given
  | operational operational =>
    -- Values that were computed are no arguments, even where a report shows them.
    cases fault with
    | badOperand | operator => cases named
    | _ => cases operational
  | missingFrame | stackUnderflow | emptyCallStack | invalidExitCode | io => cases named

end

namespace Machine

variable {Out Diag : Type} [Sink Out] [Sink Diag] {p : Program} {m after : Machine Out Diag}
  {e : RuntimeError} {a : Argument}

theorem execute_named {limit : Nat} (failed : execute p limit m = (after, some (.error e)))
    (named : a ∈ e.fault.named) : ∃ i ∈ p.instructions, a ∈ i.arguments := by
  rcases execute_error failed with
    ⟨repeated, table, rfl⟩ | ⟨labels, last, stopped, -, -, ends⟩ | ⟨text, io⟩
  -- The label that is declared twice is the one that verification names.
  · exact Verification.named_of_mem_errors (duplicate_mem_errors table) named
  · cases advances_of_advance ends with
    | @failed i _ _ found error =>
      have raised := (step_raising i _).of_error error
      exact ⟨i, Array.mem_of_getElem? found, raised.named named⟩
  · rw [io] at named
    cases named

theorem Session.named {results : List (Except RuntimeError Halt)}
    (session : Session p m results after) (returned : .error e ∈ results)
    (named : a ∈ e.fault.named) : ∃ i ∈ p.instructions, a ∈ i.arguments := by
  obtain ⟨start, limit, stopped, failed⟩ := session.returned returned
  exact execute_named failed named

end Machine

end IppCode
