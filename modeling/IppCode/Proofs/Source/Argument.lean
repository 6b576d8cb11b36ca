import IppCode.Proofs.Text.Split
import IppCode.Source.Load

/-!
# Words and arguments

A word is read as an argument of a shape just if it is the display of one that has that shape and
carries proper names (`argument?_eq_some`).
-/

namespace IppCode

open Text

@[simp] theorem Scope.ofName?_name (scope : Scope) : Scope.ofName? scope.name = some scope := by
  cases scope <;> rfl

theorem Scope.eq_name_of_ofName? {name : String} {scope : Scope}
    (h : Scope.ofName? name = some scope) : name = scope.name := by
  unfold Scope.ofName? at h
  split at h <;> cases h <;> rfl

theorem Scope.mark_not_mem_name (scope : Scope) : '@' ∉ scope.name.toList := by
  cases scope <;> decide

@[simp] theorem Kind.ofName?_name (kind : Kind) : Kind.ofName? kind.name = some kind := by
  cases kind <;> rfl

theorem Kind.eq_name_of_ofName? {name : String} {kind : Kind} (h : Kind.ofName? name = some kind) :
    name = kind.name := by
  have same := List.find?_some h
  exact (eq_of_beq same).symm

theorem Kind.mark_not_mem_name (kind : Kind) : '@' ∉ kind.name.toList := by
  cases kind <;> decide

theorem Opcode.mem_all (opcode : Opcode) : opcode ∈ Opcode.all := by
  have ofBinary (op : BinaryOp) : op ∈ BinaryOp.all := by
    rcases op with op | op | op | _
    · cases op <;> decide
    · cases op <;> decide
    · cases op <;> decide
    · decide
  have ofUnary (op : UnaryOp) : op ∈ UnaryOp.all := by
    cases op <;> decide
  cases opcode with
  | binary form op => cases form <;> simp [all, ofBinary]
  | unary form op => cases form <;> simp [all, ofUnary]
  | jumpIf form whenEqual => cases form <;> cases whenEqual <;> simp [all]
  | _ => simp [all]

theorem Opcode.ofMnemonic?_mnemonic (opcode : Opcode) :
    Opcode.ofMnemonic? opcode.mnemonic = some opcode := by
  have table : ∀ opcode ∈ Opcode.all, Opcode.ofMnemonic? opcode.mnemonic = some opcode := by
    decide +kernel
  exact table opcode opcode.mem_all

theorem not_mem_identifier {name : String} {mark : Char}
    (strange : ¬ (startsName mark = true ∨ continuesName mark = true))
    (identifier : isIdentifier name = true) : mark ∉ name.toList := by
  intro inside
  unfold isIdentifier at identifier
  split at identifier
  · cases identifier
  · rename_i first rest same
    obtain ⟨starts, continues⟩ := Bool.and_eq_true_iff.1 identifier
    rw [same] at inside
    rcases List.mem_cons.1 inside with rfl | inside
    · exact strange (.inl starts)
    · exact strange (.inr (List.all_eq_true.1 continues _ inside))

namespace Source

theorem splitFirst?_display {name rest : String} (clean : '@' ∉ name.toList) :
    splitFirst? '@' (name ++ "@" ++ rest).toList = some (name.toList, rest.toList) := by
  rw [String.toList_append, String.toList_append, List.append_assoc]
  exact splitFirst?_append clean

theorem eq_display_of_splitFirst? {word : String} {before after : List Char}
    (h : splitFirst? '@' word.toList = some (before, after)) :
    word = String.ofList before ++ "@" ++ String.ofList after := by
  rw [← String.toList_inj, eq_append_of_splitFirst? h]
  simp

end Source

theorem Variable.ofText?_eq_some {word : String} {v : Variable} :
    Variable.ofText? word = some v ↔ word = v.display ∧ isIdentifier v.name = true := by
  unfold ofText?
  constructor
  · intro h
    simp only [Option.bind_eq_bind, Option.bind_eq_some_iff] at h
    obtain ⟨⟨before, after⟩, split, scope, known, h⟩ := h
    split at h
    · rename_i identifier
      obtain rfl := Option.some.inj h
      refine ⟨?_, identifier⟩
      rw [Source.eq_display_of_splitFirst? split, Scope.eq_name_of_ofName? known, display]
    · cases h
  · rintro ⟨rfl, identifier⟩
    rw [display, Source.splitFirst?_display v.scope.mark_not_mem_name]
    simp [identifier]

namespace Source

theorem literal?_eq_some {word : String} {l : Literal} :
    literal? word = some l ↔ word = l.display ∧ (l.kind = .nil → l.text = "nil") := by
  unfold literal?
  constructor
  · intro h
    simp only [Option.bind_eq_bind, Option.bind_eq_some_iff] at h
    obtain ⟨⟨before, after⟩, split, kind, known, h⟩ := h
    split at h
    · cases h
    · rename_i proper
      obtain rfl := Option.some.inj h
      refine ⟨?_, fun nil => ?_⟩
      · rw [eq_display_of_splitFirst? split, Kind.eq_name_of_ofName? known, Literal.display]
      · exact Decidable.not_not.1 fun other => proper ⟨nil, other⟩
  · rintro ⟨rfl, proper⟩
    rw [Literal.display, splitFirst?_display l.kind.mark_not_mem_name]
    have kept : ¬ (l.kind = .nil ∧ l.text ≠ "nil") := fun ⟨nil, other⟩ => other (proper nil)
    simp only [Option.bind_eq_bind, Option.bind_some, String.ofList_toList, Kind.ofName?_name,
      if_neg kept]

theorem looksLikeVariable_variable (v : Variable) : looksLikeVariable v.display = true := by
  obtain ⟨scope, name⟩ := v
  cases scope <;> simp [looksLikeVariable, Variable.display, Scope.name]

theorem looksLikeVariable_literal (l : Literal) : looksLikeVariable l.display = false := by
  obtain ⟨kind, text⟩ := l
  cases kind <;> simp [looksLikeVariable, Literal.display, Kind.name, List.isPrefixOf]

end Source

/-- The names in an argument can be read back, and nil has its only text. -/
def Argument.Named : Argument → Prop
  | var v => isIdentifier v.name = true
  | literal l => l.kind = .nil → l.text = "nil"
  | label name => isIdentifier name = true
  | kind _ => True

namespace Source

theorem argument?_display {shape : Shape} {a : Argument} (fit : a.fits shape = true)
    (named : a.Named) : argument? shape a.display = some a := by
  cases a with
  | var v =>
    have read := Variable.ofText?_eq_some.2 ⟨rfl, named⟩
    cases shape with
    | var => simp [argument?, Argument.display, read]
    | symbol => simp [argument?, Argument.display, looksLikeVariable_variable, read]
    | label | kind => cases fit
  | literal l =>
    have read := literal?_eq_some.2 ⟨rfl, named⟩
    cases shape with
    | symbol => simp [argument?, Argument.display, looksLikeVariable_literal, read]
    | var | label | kind => cases fit
  | label name =>
    have identifier : isIdentifier name = true := named
    cases shape with
    | label => simp [argument?, Argument.display, identifier]
    | var | symbol | kind => cases fit
  | kind k =>
    cases shape with
    | kind => simp [argument?, Argument.display]
    | var | symbol | label => cases fit

theorem of_argument? {shape : Shape} {word : String} {a : Argument}
    (h : argument? shape word = some a) :
    word = a.display ∧ a.fits shape = true ∧ a.Named := by
  have ofVariable {shape : Shape} (fit : ∀ v, (Argument.var v).fits shape = true)
      (h : (Variable.ofText? word).map Argument.var = some a) :
      word = a.display ∧ a.fits shape = true ∧ a.Named := by
    obtain ⟨v, read, rfl⟩ := Option.map_eq_some_iff.1 h
    obtain ⟨rfl, identifier⟩ := Variable.ofText?_eq_some.1 read
    exact ⟨rfl, fit v, identifier⟩
  cases shape with
  | var => exact ofVariable (fun _ => rfl) h
  | symbol =>
    rw [argument?] at h
    split at h
    · exact ofVariable (fun _ => rfl) h
    · obtain ⟨l, read, rfl⟩ := Option.map_eq_some_iff.1 h
      obtain ⟨rfl, proper⟩ := literal?_eq_some.1 read
      exact ⟨rfl, rfl, proper⟩
  | label =>
    rw [argument?] at h
    split at h
    · rename_i identifier
      obtain rfl := Option.some.inj h
      exact ⟨rfl, rfl, identifier⟩
    · cases h
  | kind =>
    obtain ⟨k, read, rfl⟩ := Option.map_eq_some_iff.1 h
    exact ⟨Kind.eq_name_of_ofName? read, rfl, trivial⟩

theorem argument?_eq_some {shape : Shape} {word : String} {a : Argument} :
    argument? shape word = some a ↔ word = a.display ∧ a.fits shape = true ∧ a.Named :=
  ⟨of_argument?, fun ⟨display, fit, named⟩ => display ▸ argument?_display fit named⟩

end Source

end IppCode
