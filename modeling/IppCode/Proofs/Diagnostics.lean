import IppCode.Proofs.Machine.Dump
import IppCode.Proofs.Naming

/-!
# Diagnostics

Every diagnostic of a loaded program is a single line (`diagnostics_one_line`). What a report puts
together is a fixed text, a number or one of a few names, a value with its escapes, or something
that the diagnostic names, and that is a word of the source text.
-/

namespace IppCode

open Text

def Text.OneLine (text : String) : Prop := '\n' ∉ text.toList ∧ '\r' ∉ text.toList

instance {text : String} : Decidable (OneLine text) :=
  inferInstanceAs (Decidable ('\n' ∉ text.toList ∧ '\r' ∉ text.toList))

namespace Text

variable {text : String}

@[simp] theorem oneLine_append {front back : String} :
    OneLine (front ++ back) ↔ OneLine front ∧ OneLine back := by
  simp only [OneLine, String.toList_append, List.mem_append, not_or, and_and_and_comm]

theorem oneLine_of_high (high : ∀ c ∈ text.toList, 32 < c.toNat) : OneLine text :=
  ⟨fun feed => absurd (high _ feed) (by decide), fun feed => absurd (high _ feed) (by decide)⟩

theorem oneLine_of_plain (plain : Plain text.toList) : OneLine text := by
  refine oneLine_of_high fun c inside => ?_
  obtain ⟨low, -⟩ := plain c inside
  omega

theorem IsWord.oneLine (word : IsWord text.toList) : OneLine text := by
  obtain ⟨-, unbroken, -⟩ := word
  refine ⟨fun feed => ?_, fun feed => ?_⟩
  · cases (show isBlank '\n' = false from unbroken _ feed)
  · cases (show isBlank '\r' = false from unbroken _ feed)

theorem oneLine_intercalate {between : String} {parts : List String} (separator : OneLine between)
    (proper : ∀ part ∈ parts, OneLine part) : OneLine (String.intercalate between parts) := by
  refine ⟨fun feed => ?_, fun feed => ?_⟩
  · rcases of_mem_toList_intercalate feed with here | ⟨part, given, there⟩
    · exact separator.1 here
    · exact (proper part given).1 there
  · rcases of_mem_toList_intercalate feed with here | ⟨part, given, there⟩
    · exact separator.2 here
    · exact (proper part given).2 there

@[simp] theorem oneLine_nat (n : Nat) : OneLine n.repr := by
  refine oneLine_of_high fun c inside => ?_
  rw [← Nat.toString_eq_repr] at inside
  have range := toNat_of_isDigit (isDigit_of_mem_toString inside)
  omega

@[simp] theorem oneLine_int (n : Int) : OneLine n.repr :=
  oneLine_of_plain (plain_toString_int n)

@[simp] theorem oneLine_order (n : UInt32) : OneLine (toString n) := oneLine_nat n.toNat

end Text

@[simp] theorem Opcode.oneLine_mnemonic (opcode : Opcode) : OneLine opcode.mnemonic :=
  (mnemonic_isWord opcode).oneLine

@[simp] theorem Kind.oneLine_name (k : Kind) : OneLine k.name := by
  cases k <;> decide

@[simp] theorem Kind.oneLine_names (kinds : List Kind) :
    OneLine (String.intercalate ", " (kinds.map name)) := by
  refine oneLine_intercalate (by decide) fun part listed => ?_
  obtain ⟨k, -, rfl⟩ := List.mem_map.1 listed
  exact k.oneLine_name

@[simp] theorem Scope.oneLine_name (scope : Scope) : OneLine scope.name := by
  cases scope <;> decide

@[simp] theorem Shape.oneLine_name (shape : Shape) : OneLine shape.name := by
  cases shape <;> decide

@[simp] theorem ArgumentFault.oneLine_shapePhrase (shape : Shape) :
    OneLine (shapePhrase shape) := by
  cases shape <;> decide

@[simp] theorem Verification.oneLine_shapePhrase (shape : Shape) : OneLine (shapePhrase shape) := by
  cases shape <;> decide

@[simp] theorem Argument.oneLine_sort (a : Argument) : OneLine a.sort := by
  cases a <;> simp +decide only [sort]

@[simp] theorem Value.oneLine_typed (value : Value) : OneLine value.typed :=
  oneLine_of_high fun _ inside => Value.of_mem_typed inside

@[simp] theorem Value.oneLine_float (x : Binary64) : OneLine (Value.float x).display :=
  oneLine_of_plain (Value.plain_display (by simp))

theorem Literal.oneLine_complaint {l : Literal} (clean : OneLine l.display) :
    OneLine l.complaint := by
  have text : OneLine l.text := (oneLine_append.1 clean).2
  unfold complaint
  simp +decide [toString_self, text]

theorem Source.LoadError.oneLine_message {e : LoadError}
    (named : ∀ word ∈ e.fault.word?, OneLine word) : OneLine e.message := by
  have fault : OneLine e.fault.message := by
    unfold Fault.message
    cases found : e.fault with
    | missingHeader => decide +kernel
    | missingArgument opcode => simp +decide [toString_self]
    | unknownOpcode word | unexpectedWord word | invalidArgument expected word =>
      have clean : OneLine word := named word (by rw [found]; rfl)
      simp +decide [toString_self, clean]
  unfold message
  simp +decide [toString_self, fault]

theorem Verification.VerifyError.oneLine_message {e : VerifyError}
    (named : ∀ a ∈ e.fault.named, OneLine a.display) : OneLine e.message := by
  unfold message
  cases found : e.fault with
  | zeroOrder | unordered | argumentCount | argumentShape => simp +decide [toString_self]
  | invalidLiteral l =>
    have clean : OneLine l.display :=
      named (.literal l) (by rw [found]; exact List.mem_singleton_self _)
    simp +decide [toString_self, Literal.oneLine_complaint clean]
  | duplicateLabel name | undefinedLabel name =>
    have clean : OneLine name :=
      named (.label name) (by rw [found]; exact List.mem_singleton_self _)
    simp +decide [toString_self, clean]

theorem DecodeError.oneLine_message {e : DecodeError} (clean : OneLine e.text) :
    OneLine e.message := by
  unfold message
  cases e with
  | unknownOpcode text | unknownKind text | invalidVariable text =>
    replace clean : OneLine text := clean
    simp +decide [toString_self, clean]
  | duplicateLabel repeated =>
    replace clean : OneLine repeated.name := clean
    simp +decide [toString_self, clean]

theorem ArgumentFault.oneLine_reason {opcode : Opcode} {fault : ArgumentFault}
    (named : ∀ a ∈ (Fault.malformed opcode fault).named, OneLine a.display) :
    OneLine fault.reason := by
  unfold reason
  cases fault with
  | missing | wrongShape => simp +decide [toString_self]
  | undecoded e => exact e.oneLine_message (named (.label e.text) (List.mem_singleton_self _))

theorem Fault.oneLine_operatorMessage (opcode : Opcode) (e : OperatorError) :
    OneLine (operatorMessage opcode e) := by
  unfold operatorMessage
  cases e <;> simp +decide [toString_self]

theorem Fault.oneLine_frameMessage {e : FrameError}
    (named : ∀ a ∈ (Fault.frame e).named, OneLine a.display) : OneLine (frameMessage e) := by
  unfold frameMessage
  cases e with
  | missingFrame scope => simp +decide [toString_self]
  | undefined v | redefined v | uninitialized v =>
    have clean : OneLine v.display := named (.var v) (List.mem_singleton_self _)
    simp +decide [toString_self, clean]

theorem RuntimeError.oneLine_message {e : RuntimeError} (internal : ∀ text, e.fault ≠ .io text)
    (named : ∀ a ∈ e.fault.named, OneLine a.display) : OneLine e.message := by
  unfold message
  cases found : e.fault with
  | malformed opcode fault =>
    simp +decide [toString_self, ArgumentFault.oneLine_reason (found ▸ named)]
  | invalidLiteral l =>
    have clean : OneLine l.display :=
      named (.literal l) (by rw [found]; exact List.mem_singleton_self _)
    simp +decide [toString_self, Literal.oneLine_complaint clean]
  | duplicateLabel name | undefinedLabel name =>
    have clean : OneLine name :=
      named (.label name) (by rw [found]; exact List.mem_singleton_self _)
    simp +decide [toString_self, clean]
  | frame e => simp +decide [toString_self, Fault.oneLine_frameMessage (found ▸ named)]
  | operator opcode e => simp +decide [toString_self, Fault.oneLine_operatorMessage]
  | badOperand | emptyCallStack | stackUnderflow | invalidExitCode =>
    simp +decide [toString_self]
  | io text => exact absurd found (internal text)

theorem Program.Loadable.oneLine {p : Program} {a : Argument} (loadable : p.Loadable)
    (given : ∃ i ∈ p.instructions, a ∈ i.arguments) : OneLine a.display := by
  obtain ⟨i, listed, inside⟩ := given
  have writable := (loadable.writable i listed).arguments a inside
  exact (Argument.writable_iff.1 writable).2.oneLine

theorem diagnostics_one_line (text : String) :
    (∀ e, Source.load text = .error e → OneLine e.message) ∧
    ∀ p, Source.load text = .ok p →
      (∀ e ∈ Verification.errors p, OneLine e.message) ∧
      ∀ (Out Diag : Type) [Sink Out] [Sink Diag] (m after : Machine Out Diag)
        (results : List (Except RuntimeError Halt)), Machine.Session p m results after →
        ∀ e, .error e ∈ results → (∀ failure, e.fault ≠ .io failure) → OneLine e.message := by
  refine ⟨fun e refused => ?_, fun p loaded => ?_⟩
  · exact e.oneLine_message fun word named => (Source.isWord_of_refused refused named).oneLine
  · have loadable := Source.loadable_of_load loaded
    refine ⟨fun e listed => ?_, fun Out Diag _ _ m after results session e returned internal => ?_⟩
    · apply e.oneLine_message
      intro a named
      exact loadable.oneLine (Verification.named_of_mem_errors listed named)
    · apply e.oneLine_message internal
      intro a named
      exact loadable.oneLine (session.named returned named)

theorem diagnostics_one_line_feed :
    ∃ (p : Program) (after : Machine Buffer Buffer) (e : RuntimeError),
      Source.load ".IPPcode22\nexit string@a\\010b" = .ok p ∧
      Machine.Session p (Machine.initial ⟨[], none⟩ Buffer.unbounded Buffer.unbounded false)
        [.error e] after ∧
      e.fault = .badOperand .exit (.string "a\nb") [.int] ∧ OneLine e.message := by
  have loaded : Source.load ".IPPcode22\nexit string@a\\010b" =
      .ok ⟨#[⟨.exit, 1, [.literal ⟨.string, "a\\010b"⟩]⟩]⟩ := by
    rfl
  let m : Machine Buffer Buffer :=
    Machine.initial ⟨[], none⟩ Buffer.unbounded Buffer.unbounded false
  let p : Program := ⟨#[⟨.exit, 1, [.literal ⟨.string, "a\\010b"⟩]⟩]⟩
  have failed : Machine.execute p 1 m =
      (_, some (.error ⟨1, .badOperand .exit (.string "a\nb") [.int]⟩)) := rfl
  have session := Machine.Session.call failed .done
  obtain ⟨-, programs⟩ := diagnostics_one_line ".IPPcode22\nexit string@a\\010b"
  obtain ⟨-, runs⟩ := programs p loaded
  exact ⟨p, _, _, loaded, session, rfl, runs _ _ m _ _ session _ List.mem_cons_self (by simp)⟩

end IppCode
