import IppCode.Proofs.Source.RoundTrip
import IppCode.Proofs.Verification.Soundness

/-!
# Verification of loaded programs

Loading numbers the instructions and gives their arguments the shapes that verification asks for and
that instructions look for. So a loaded program has no flaws but literals without a value, none of
them of kind nil, and labels, and no run of it ends over a malformed instruction (`loaded_clean`).
-/

namespace IppCode.Verification

open Source

variable {p : Program} {text : String}

theorem size_lt_of_load (short : (significantLines text.toList).tail.length < UInt32.size)
    (loaded : load text = .ok p) : p.instructions.size < UInt32.size := by
  have loads := load_eq_ok.1 loaded
  generalize significantLines text.toList = significant at short loads
  obtain ⟨-, lined, -⟩ := loads
  rw [← Array.length_toList, ← lined.length_eq]
  exact short

theorem value?_isSome_of_nil {l : Literal} (nil : l.kind = .nil) (text : l.text = "nil") :
    l.value?.isSome = true := by
  simp [Literal.value?, nil, text]

theorem flaw_of_loadable {k : Nat} {v : Fault} (loadable : p.Loadable)
    (small : p.instructions.size < UInt32.size) (flaw : Flaw p k v) :
    (∃ l, v = .invalidLiteral l ∧ l.kind ≠ .nil) ∨ (∃ name, v = .duplicateLabel name) ∨
      ∃ name, v = .undefinedLabel name := by
  have numbered := (Program.numbered_iff small).1 loadable.numbered
  have writable {k : Nat} {i : Instruction} (found : p.instructions[k]? = some i) : i.Writable :=
    loadable.writable i (Array.mem_of_getElem? found)
  cases flaw with
  | zeroOrder found zero =>
    have order := numbered _ _ found
    simp [zero] at order
  | unordered there found below =>
    have first := numbered _ _ there
    have second := numbered _ _ found
    rw [UInt32.le_iff_toNat_le] at below
    omega
  | argumentCount found count => exact absurd (writable found).fits.length_eq count
  | argumentShape found count asked given unfit =>
    have clean := argumentFaults_eq_nil.2 (writable found).fits
    have reported := mem_argumentFaults.2 (.inr ⟨count, _, _, _, asked, given, unfit, rfl⟩)
    simp [clean] at reported
  | @invalidLiteral _ _ l found argument invalid =>
    refine .inl ⟨l, rfl, fun nil => ?_⟩
    have written : Argument.Writable (.literal l) := (writable found).arguments _ argument
    have readable := value?_isSome_of_nil nil (written.2.2 nil)
    simp [invalid] at readable
  | duplicateLabel => exact .inr (.inl ⟨_, rfl⟩)
  | undefinedLabel => exact .inr (.inr ⟨_, rfl⟩)

theorem loaded_clean (short : (significantLines text.toList).tail.length < UInt32.size)
    (loaded : load text = .ok p) :
    structuralErrors none (positioned p.instructions.toList) = [] ∧
    (∀ e ∈ errors p, (∃ l, e.fault = .invalidLiteral l ∧ l.kind ≠ .nil) ∨
      (∃ name, e.fault = .duplicateLabel name) ∨ ∃ name, e.fault = .undefinedLabel name) ∧
    ∀ (Out Diag : Type) [Sink Out] [Sink Diag] (m after : Machine Out Diag)
      (results : List (Except RuntimeError Halt)), Machine.Session p m results after →
      ∀ e, .error e ∈ results → ∀ opcode fault, e.fault ≠ .malformed opcode fault := by
  have only {k : Nat} {v : Fault} (flaw : Flaw p k v) :=
    flaw_of_loadable (loadable_of_load loaded) (size_lt_of_load short loaded) flaw
  refine ⟨?_, ?_, ?_⟩
  · refine List.eq_nil_iff_forall_not_mem.2 fun e listed => ?_
    obtain ⟨k, -, flaw, concern⟩ := mem_structural.1 listed
    rcases only flaw with ⟨l, fault, -⟩ | ⟨name, fault⟩ | ⟨name, fault⟩ <;>
      simp [fault, Fault.concern] at concern
  · intro e listed
    obtain ⟨k, -, flaw⟩ := mem_errors_iff.1 listed
    exact only flaw
  · intro Out Diag _ _ m after results session e returned opcode fault malformed
    have static : e.fault.isStatic = true := by rw [malformed]; rfl
    obtain ⟨v, listed, -, foretells⟩ := session.reported returned static
    obtain ⟨k, -, flaw⟩ := mem_errors_iff.1 listed
    rw [malformed] at foretells
    rcases only flaw with ⟨l, other, -⟩ | ⟨name, other⟩ | ⟨name, other⟩ <;>
      · rw [other] at foretells
        cases foretells

theorem loaded_clean_unread :
    ∃ (p : Program) (after : Machine Buffer Buffer) (e : RuntimeError),
      load ".IPPcode22\n\n# none\nwrite int@x" = .ok p ∧
      errors p = [⟨1, .invalidLiteral ⟨.int, "x"⟩⟩] ∧
      structuralErrors none (positioned p.instructions.toList) = [] ∧
      Machine.Session p (Machine.initial ⟨[], none⟩ Buffer.unbounded Buffer.unbounded true)
        [.error e] after ∧
      e.fault = .invalidLiteral ⟨.int, "x"⟩ ∧
      ∀ opcode fault, e.fault ≠ .malformed opcode fault := by
  have loaded : load ".IPPcode22\n\n# none\nwrite int@x" =
      .ok ⟨#[⟨.write, 1, [.literal ⟨.int, "x"⟩]⟩]⟩ := by
    rfl
  have short : (significantLines ".IPPcode22\n\n# none\nwrite int@x".toList).tail.length <
      UInt32.size :=
    show 1 < UInt32.size by decide
  let m : Machine Buffer Buffer :=
    Machine.initial ⟨[], none⟩ Buffer.unbounded Buffer.unbounded true
  let p : Program := ⟨#[⟨.write, 1, [.literal ⟨.int, "x"⟩]⟩]⟩
  have failed : Machine.execute p 1 m = (_, some (.error ⟨1, .invalidLiteral ⟨.int, "x"⟩⟩)) := rfl
  have session := Machine.Session.call failed .done
  obtain ⟨clean, -, runs⟩ := loaded_clean short loaded
  exact ⟨p, _, _, loaded, rfl, clean, session, rfl,
    runs _ _ m _ _ session _ List.mem_cons_self⟩

end IppCode.Verification
