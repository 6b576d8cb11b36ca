import IppCode.Proofs.Source.Loadable

/-!
# The grammar of sources

What a line must be to be read as an instruction (`Spells`), what is wrong with it otherwise
(`Offends`), and loading in terms of the two: a text is loaded just if it has the header and its
other lines are instructions, and else the first line that is not what it must be is reported
(`load_reads_grammar`).
-/

namespace IppCode

open Text

theorem Text.sameLetters_comm {a b : String} (same : sameLetters a b = true) :
    sameLetters b a = true := by
  have letters := eq_of_beq same
  exact beq_iff_eq.2 letters.symm

theorem Text.sameLetters_trans {a b c : String} (first : sameLetters a b = true)
    (second : sameLetters b c = true) : sameLetters a c = true :=
  beq_iff_eq.2 ((eq_of_beq first).trans (eq_of_beq second))

theorem Opcode.ofMnemonic?_congr {text other : String} (same : sameLetters text other = true) :
    Opcode.ofMnemonic? text = Opcode.ofMnemonic? other := by
  have letters := eq_of_beq same
  simp only [ofMnemonic?, sameLetters, letters]

theorem Opcode.ofMnemonic?_eq_some {text : String} {opcode : Opcode} :
    Opcode.ofMnemonic? text = some opcode ↔ sameLetters opcode.mnemonic text = true := by
  constructor
  · intro found
    have same := List.find?_some found
    exact same
  · intro same
    rw [← ofMnemonic?_congr same, ofMnemonic?_mnemonic]

namespace Source

inductive Reads : Shape → String → Argument → Prop
  | var {v : Variable} : isIdentifier v.name = true → Reads .var v.display (.var v)
  | variable {v : Variable} : isIdentifier v.name = true → Reads .symbol v.display (.var v)
  | literal {l : Literal} : (l.kind = .nil → l.text = "nil") →
      Reads .symbol l.display (.literal l)
  | label {name : String} : isIdentifier name = true → Reads .label name (.label name)
  | kind {k : Kind} : Reads .kind k.name (.kind k)

inductive ReadsAll : List Shape → List String → List Argument → Prop
  | nil : ReadsAll [] [] []
  | cons {shape : Shape} {shapes : List Shape} {word : String} {words : List String}
      {a : Argument} {found : List Argument} :
      Reads shape word a → ReadsAll shapes words found →
        ReadsAll (shape :: shapes) (word :: words) (a :: found)

/-- The leftmost word that does not have its shape. -/
inductive LeftmostMisfit : List Shape → List String → Shape → String → Prop
  | here {shape : Shape} {shapes : List Shape} {word : String} {words : List String} :
      (∀ a, ¬ Reads shape word a) → LeftmostMisfit (shape :: shapes) (word :: words) shape word
  | later {shape bad : Shape} {shapes : List Shape} {word text : String} {words : List String}
      {a : Argument} :
      Reads shape word a → LeftmostMisfit shapes words bad text →
        LeftmostMisfit (shape :: shapes) (word :: words) bad text

variable {shape : Shape} {shapes : List Shape} {word : String} {words : List String}

theorem reads_iff {a : Argument} : Reads shape word a ↔ argument? shape word = some a := by
  rw [argument?_eq_some]
  constructor
  · rintro (named | named | named | named | _)
    · exact ⟨rfl, rfl, named⟩
    · exact ⟨rfl, rfl, named⟩
    · exact ⟨rfl, rfl, named⟩
    · exact ⟨rfl, rfl, named⟩
    · exact ⟨rfl, rfl, trivial⟩
  · rintro ⟨rfl, fit, named⟩
    cases a with
    | var v =>
      cases shape with
      | var => exact .var named
      | symbol => exact .variable named
      | label | kind => cases fit
    | literal l =>
      cases shape with
      | symbol => exact .literal named
      | var | label | kind => cases fit
    | label name =>
      cases shape with
      | label => exact .label named
      | var | symbol | kind => cases fit
    | kind k =>
      cases shape with
      | kind => exact .kind
      | var | symbol | label => cases fit

theorem not_reads_iff : (∀ a, ¬ Reads shape word a) ↔ argument? shape word = none := by
  simp only [reads_iff, Option.eq_none_iff_forall_ne_some]

theorem map_eq_ok {ε α β : Type} {result : Except ε α} {f : α → β} {b : β} :
    result.map f = .ok b ↔ ∃ a, result = .ok a ∧ f a = b := by
  cases result <;> simp [Except.map]

theorem map_eq_error {ε α β : Type} {result : Except ε α} {f : α → β} {e : ε} :
    result.map f = .error e ↔ result = .error e := by
  cases result <;> simp [Except.map]

theorem arguments_eq_ok {found : List Argument} (count : words.length = shapes.length) :
    arguments shapes words = .ok found ↔ ReadsAll shapes words found := by
  induction shapes generalizing words found with
  | nil =>
    obtain rfl := List.length_eq_zero_iff.1 count
    constructor
    · rintro ⟨⟩
      exact .nil
    · rintro ⟨⟩
      rfl
  | cons shape shapes ih =>
    cases words with
    | nil => cases count
    | cons word words =>
      rw [arguments]
      cases read : argument? shape word with
      | none =>
        constructor
        · nofun
        · rintro (_ | ⟨reads, -⟩)
          exact absurd reads (not_reads_iff.2 read _)
      | some a =>
        simp only [map_eq_ok, ih (Nat.succ.inj count)]
        constructor
        · rintro ⟨others, rest, rfl⟩
          exact .cons (reads_iff.2 read) rest
        · rintro (_ | ⟨reads, rest⟩)
          obtain rfl := Option.some.inj (read.symm.trans (reads_iff.1 reads))
          exact ⟨_, rest, rfl⟩

theorem arguments_eq_error {fault : Fault} (count : words.length = shapes.length) :
    arguments shapes words = .error fault ↔
      ∃ shape word, fault = .invalidArgument shape word ∧
        LeftmostMisfit shapes words shape word := by
  induction shapes generalizing words with
  | nil =>
    obtain rfl := List.length_eq_zero_iff.1 count
    constructor
    · nofun
    · rintro ⟨_, _, _, ⟨⟩⟩
  | cons shape shapes ih =>
    cases words with
    | nil => cases count
    | cons word words =>
      rw [arguments]
      cases read : argument? shape word with
      | none =>
        constructor
        · rintro ⟨⟩
          exact ⟨shape, word, rfl, .here (not_reads_iff.2 read)⟩
        · rintro ⟨_, _, rfl, _ | ⟨reads, -⟩⟩
          · rfl
          · exact absurd reads (not_reads_iff.2 read _)
      | some a =>
        simp only [map_eq_error, ih (Nat.succ.inj count)]
        constructor
        · rintro ⟨bad, text, rfl, misfit⟩
          exact ⟨bad, text, rfl, .later (reads_iff.2 read) misfit⟩
        · rintro ⟨bad, text, rfl, none | ⟨_, misfit⟩⟩
          · exact absurd (reads_iff.2 read) (none a)
          · exact ⟨bad, text, rfl, misfit⟩

/-! ## Lines -/

/-- A mnemonic in any case and a word for each argument. -/
inductive Spells : List String → Instruction → Prop
  | line {i : Instruction} {mnemonic : String} {rest : List String} :
      sameLetters i.opcode.mnemonic mnemonic = true →
        ReadsAll i.opcode.signature rest i.arguments → Spells (mnemonic :: rest) i

/-- The number of words is looked at before their shapes. -/
inductive Offends : List String → Fault → Prop
  | unknown {mnemonic : String} {rest : List String} :
      (∀ opcode : Opcode, sameLetters opcode.mnemonic mnemonic = false) →
        Offends (mnemonic :: rest) (.unknownOpcode mnemonic)
  | missing {opcode : Opcode} {mnemonic : String} {rest : List String} :
      sameLetters opcode.mnemonic mnemonic = true → rest.length < opcode.signature.length →
        Offends (mnemonic :: rest) (.missingArgument opcode)
  | unexpected {opcode : Opcode} {mnemonic extra : String} {rest : List String} :
      sameLetters opcode.mnemonic mnemonic = true →
        rest[opcode.signature.length]? = some extra →
          Offends (mnemonic :: rest) (.unexpectedWord extra)
  | invalid {opcode : Opcode} {mnemonic word : String} {rest : List String} {shape : Shape} :
      sameLetters opcode.mnemonic mnemonic = true → rest.length = opcode.signature.length →
        LeftmostMisfit opcode.signature rest shape word →
          Offends (mnemonic :: rest) (.invalidArgument shape word)

variable {order : UInt32} {mnemonic : String} {rest : List String}

theorem instruction_of_unknown
    (unknown : ∀ opcode : Opcode, sameLetters opcode.mnemonic mnemonic = false) :
    instruction order mnemonic rest = .error (.unknownOpcode mnemonic) := by
  have missing : Opcode.ofMnemonic? mnemonic = none :=
    List.find?_eq_none.2 fun opcode _ => Bool.eq_false_iff.1 (unknown opcode)
  simp only [instruction, missing]

theorem instruction_of_known {opcode : Opcode}
    (known : sameLetters opcode.mnemonic mnemonic = true) :
    instruction order mnemonic rest =
      if rest.length < opcode.signature.length then .error (.missingArgument opcode)
      else
        match rest[opcode.signature.length]? with
        | some extra => .error (.unexpectedWord extra)
        | none => (arguments opcode.signature rest).map fun found => ⟨opcode, order, found⟩ := by
  have read := Opcode.ofMnemonic?_eq_some.2 known
  unfold instruction
  split
  · rename_i unread
    cases read.symm.trans unread
  · rename_i other again
    obtain rfl := Option.some.inj (read.symm.trans again)
    rfl

theorem instruction_of_count {opcode : Opcode}
    (known : sameLetters opcode.mnemonic mnemonic = true)
    (count : rest.length = opcode.signature.length) :
    instruction order mnemonic rest =
      (arguments opcode.signature rest).map fun found => ⟨opcode, order, found⟩ := by
  have none : rest[opcode.signature.length]? = none := List.getElem?_eq_none (Nat.le_of_eq count)
  rw [instruction_of_known known, if_neg (Nat.not_lt.2 (Nat.le_of_eq count.symm)), none]

theorem ReadsAll.length_eq {found : List Argument} (reads : ReadsAll shapes words found) :
    words.length = shapes.length := by
  induction reads with
  | nil => rfl
  | cons _ _ ih => exact congrArg (· + 1) ih

theorem Spells.instruction {i : Instruction} (spells : Spells (mnemonic :: rest) i) :
    instruction i.order mnemonic rest = .ok i := by
  obtain ⟨known, reads⟩ := spells
  rw [instruction_of_count known reads.length_eq, (arguments_eq_ok reads.length_eq).2 reads]
  rfl

theorem Offends.instruction {fault : Fault} (offends : Offends (mnemonic :: rest) fault) :
    instruction order mnemonic rest = .error fault := by
  cases offends with
  | unknown unknown => exact instruction_of_unknown unknown
  | missing known short => rw [instruction_of_known known, if_pos short]
  | @unexpected opcode _ extra _ known found =>
    have long : opcode.signature.length < rest.length := (List.getElem?_eq_some_iff.1 found).1
    rw [instruction_of_known known, if_neg (Nat.lt_asymm long), found]
  | @invalid opcode _ word _ shape known count misfit =>
    rw [instruction_of_count known count,
      (arguments_eq_error count).2 ⟨shape, word, rfl, misfit⟩]
    rfl

theorem spells_or_offends (order : UInt32) (mnemonic : String) (rest : List String) :
    (∃ i, instruction order mnemonic rest = .ok i ∧ i.order = order ∧
      Spells (mnemonic :: rest) i) ∨
    ∃ fault, instruction order mnemonic rest = .error fault ∧ Offends (mnemonic :: rest) fault := by
  by_cases unknown : ∀ opcode : Opcode, sameLetters opcode.mnemonic mnemonic = false
  · exact .inr ⟨_, instruction_of_unknown unknown, .unknown unknown⟩
  · simp only [not_forall, Bool.not_eq_false] at unknown
    obtain ⟨opcode, known⟩ := unknown
    rcases Nat.lt_trichotomy rest.length opcode.signature.length with short | count | long
    · have offends : Offends (mnemonic :: rest) _ := .missing known short
      exact .inr ⟨_, offends.instruction, offends⟩
    · cases read : arguments opcode.signature rest with
      | ok found =>
        have spells : Spells (mnemonic :: rest) ⟨opcode, order, found⟩ :=
          .line known ((arguments_eq_ok count).1 read)
        exact .inl ⟨_, spells.instruction, rfl, spells⟩
      | error fault =>
        obtain ⟨shape, word, rfl, misfit⟩ := (arguments_eq_error count).1 read
        have offends : Offends (mnemonic :: rest) _ := .invalid known count misfit
        exact .inr ⟨_, offends.instruction, offends⟩
    · have offends : Offends (mnemonic :: rest) _ :=
        .unexpected known (List.getElem?_eq_getElem long)
      exact .inr ⟨_, offends.instruction, offends⟩

theorem instruction_eq_ok {i : Instruction} :
    instruction order mnemonic rest = .ok i ↔ Spells (mnemonic :: rest) i ∧ i.order = order := by
  constructor
  · intro read
    rcases spells_or_offends order mnemonic rest with ⟨j, again, ordered, spells⟩ | ⟨_, error, -⟩
    · obtain rfl := Except.ok.inj (again.symm.trans read)
      exact ⟨spells, ordered⟩
    · cases error.symm.trans read
  · rintro ⟨spells, rfl⟩
    exact spells.instruction

theorem instruction_eq_error {fault : Fault} :
    instruction order mnemonic rest = .error fault ↔ Offends (mnemonic :: rest) fault := by
  refine ⟨fun read => ?_, Offends.instruction⟩
  rcases spells_or_offends order mnemonic rest with ⟨_, ok, -⟩ | ⟨other, again, offends⟩
  · cases ok.symm.trans read
  · obtain rfl := Except.error.inj (again.symm.trans read)
    exact offends

theorem Spells.not_offends {i : Instruction} {fault : Fault} {words : List String}
    (spells : Spells words i) : ¬ Offends words fault := by
  intro offends
  obtain ⟨known, reads⟩ := spells
  have ok := (Spells.line known reads).instruction
  cases ok.symm.trans offends.instruction

def Counted (start : Nat) (found : List Instruction) : Prop :=
  ∀ (k : Nat) (i : Instruction), found[k]? = some i → i.order = .ofNat (start + k)

theorem counted_cons {start : Nat} {i : Instruction} {found : List Instruction} :
    Counted start (i :: found) ↔ i.order = .ofNat start ∧ Counted (start + 1) found := by
  constructor
  · intro counted
    refine ⟨counted 0 i rfl, fun k j present => ?_⟩
    rw [Nat.succ_add_eq_add_succ]
    exact counted (k + 1) j present
  · rintro ⟨first, others⟩ k j present
    cases k with
    | zero =>
      obtain rfl := Option.some.inj present
      exact first
    | succ k =>
      rw [← Nat.succ_add_eq_add_succ]
      exact others k j present

theorem instructions_eq_ok {start : Nat} {found : List Instruction}
    {lines : List (Nat × List String)} (worded : ∀ line ∈ lines, line.2 ≠ []) :
    instructions start lines = .ok found ↔
      List.Forall₂ (fun line i => Spells line.2 i) lines found ∧ Counted start found := by
  induction lines generalizing start found with
  | nil =>
    constructor
    · rintro ⟨⟩
      exact ⟨.nil, nofun⟩
    · rintro ⟨⟨⟩, -⟩
      rfl
  | cons line lines ih =>
    obtain ⟨proper, others⟩ := List.forall_mem_cons.1 worded
    obtain ⟨number, _ | ⟨mnemonic, rest⟩⟩ := line
    · exact absurd rfl proper
    · rw [instructions]
      cases read : instruction (.ofNat start) mnemonic rest with
      | error fault =>
        constructor
        · nofun
        · rintro ⟨_ | ⟨spells, -⟩, counted⟩
          have ok := instruction_eq_ok.2 ⟨spells, (counted_cons.1 counted).1⟩
          cases ok.symm.trans read
      | ok i =>
        simp only [map_eq_ok, ih others]
        obtain ⟨spells, ordered⟩ := instruction_eq_ok.1 read
        constructor
        · rintro ⟨later, ⟨lined, counted⟩, rfl⟩
          exact ⟨.cons spells lined, counted_cons.2 ⟨ordered, counted⟩⟩
        · rintro ⟨_ | ⟨again, lined⟩, counted⟩
          obtain ⟨first, later⟩ := counted_cons.1 counted
          obtain rfl := Except.ok.inj (read.symm.trans (instruction_eq_ok.2 ⟨again, first⟩))
          exact ⟨_, ⟨lined, later⟩, rfl⟩

inductive Reports : List (Nat × List String) → LoadError → Prop
  | here {line : Nat} {words : List String} {lines : List (Nat × List String)} {fault : Fault} :
      Offends words fault → Reports ((line, words) :: lines) ⟨line, fault⟩
  | later {line : Nat} {words : List String} {lines : List (Nat × List String)} {e : LoadError}
      {i : Instruction} :
      Spells words i → Reports lines e → Reports ((line, words) :: lines) e

theorem instructions_eq_error {start : Nat} {e : LoadError} {lines : List (Nat × List String)}
    (worded : ∀ line ∈ lines, line.2 ≠ []) :
    instructions start lines = .error e ↔ Reports lines e := by
  induction lines generalizing start with
  | nil => constructor <;> nofun
  | cons line lines ih =>
    obtain ⟨proper, others⟩ := List.forall_mem_cons.1 worded
    obtain ⟨number, _ | ⟨mnemonic, rest⟩⟩ := line
    · exact absurd rfl proper
    · rw [instructions]
      cases read : instruction (.ofNat start) mnemonic rest with
      | error fault =>
        constructor
        · rintro ⟨⟩
          exact .here (instruction_eq_error.1 read)
        · rintro (offends | ⟨spells, -⟩)
          · obtain rfl := Except.error.inj (read.symm.trans offends.instruction)
            rfl
          · exact absurd (instruction_eq_error.1 read) spells.not_offends
      | ok i =>
        simp only [map_eq_error, ih others]
        obtain ⟨spells, -⟩ := instruction_eq_ok.1 read
        constructor
        · exact .later spells
        · rintro (offends | ⟨-, reports⟩)
          · exact absurd offends spells.not_offends
          · exact reports

theorem mem_significantLines {text : List Char} {line : Nat} {words : List String} :
    (line, words) ∈ significantLines text ↔
      words ≠ [] ∧ ∃ k source, line = k + 1 ∧ (Text.lines text)[k]? = some source ∧
        lineWords source = words := by
  rw [significantLines, List.mem_filterMap]
  constructor
  · rintro ⟨⟨source, number⟩, listed, kept⟩
    obtain ⟨first, present⟩ := List.mk_mem_zipIdx_iff_le_and_getElem?_sub.1 listed
    by_cases empty : (lineWords source).isEmpty = true
    · simp [empty] at kept
    · simp only [empty, Bool.false_eq_true, if_false, Option.some.injEq, Prod.mk.injEq] at kept
      obtain ⟨rfl, rfl⟩ := kept
      exact ⟨by simpa using empty, number - 1, source, by omega, present, rfl⟩
  · rintro ⟨proper, k, source, rfl, present, rfl⟩
    refine ⟨(source, k + 1), List.mk_mem_zipIdx_iff_le_and_getElem?_sub.2 ⟨by omega, present⟩, ?_⟩
    simp [proper]

theorem significantLines_increase (text : List Char) :
    (significantLines text).Pairwise fun a b => a.1 < b.1 := by
  have numbers : ((Text.lines text).zipIdx 1).Pairwise fun a b => a.2 < b.2 := by
    rw [← List.pairwise_map (f := Prod.snd) (R := fun a b => a < b), List.zipIdx_map_snd]
    exact List.pairwise_lt_range'
  have number {entry : List Char × Nat} {line : Nat × List String}
      (kept : (if (lineWords entry.1).isEmpty then none else some (entry.2, lineWords entry.1)) =
        some line) : line.1 = entry.2 := by
    split at kept
    · cases kept
    · cases kept
      rfl
  refine numbers.filterMap _ fun a b less c kept d later => ?_
  rw [number kept, number later]
  exact less

theorem worded_significantLines (text : List Char) :
    ∀ line ∈ significantLines text, line.2 ≠ [] :=
  fun _ listed => (mem_significantLines.1 listed).1

/-! ## Loading -/

inductive Loads : List (Nat × List String) → Program → Prop
  | program {line : Nat} {word : String} {rest : List (Nat × List String)} {p : Program} :
      sameLetters word header = true →
        List.Forall₂ (fun line i => Spells line.2 i) rest p.instructions.toList → p.Numbered →
          Loads ((line, [word]) :: rest) p

/-- What is wrong with the significant lines of a text that has so many lines. -/
inductive Refuses (count : Nat) : List (Nat × List String) → LoadError → Prop
  | empty : Refuses count [] ⟨count, .missingHeader⟩
  | header {line : Nat} {words : List String} {rest : List (Nat × List String)} :
      (∀ word, words = [word] → sameLetters word header = false) →
        Refuses count ((line, words) :: rest) ⟨line, .missingHeader⟩
  | line {line : Nat} {word : String} {rest : List (Nat × List String)} {e : LoadError} :
      sameLetters word header = true → Reports rest e → Refuses count ((line, [word]) :: rest) e

theorem isHeader_eq_true {first : List String} :
    isHeader first = true ↔ ∃ word, first = [word] ∧ sameLetters word header = true := by
  unfold isHeader
  split
  · rename_i word
    constructor
    · exact fun same => ⟨word, rfl, same⟩
    · rintro ⟨_, ⟨⟩, same⟩
      exact same
  · rename_i several
    constructor
    · nofun
    · rintro ⟨word, single, -⟩
      exact absurd single (several word)

theorem counted_toList {p : Program} : Counted 1 p.instructions.toList ↔ p.Numbered := by
  refine forall_congr' fun k => forall_congr' fun i => ?_
  rw [Array.getElem?_toList, Nat.add_comm]

variable {text : String}

theorem load_eq_ok {p : Program} : load text = .ok p ↔ Loads (significantLines text.toList) p := by
  have worded := worded_significantLines text.toList
  unfold load
  generalize significantLines text.toList = significant at worded ⊢
  cases significant with
  | nil => constructor <;> nofun
  | cons first rest =>
    obtain ⟨line, words⟩ := first
    obtain ⟨-, others⟩ := List.forall_mem_cons.1 worded
    by_cases headed : isHeader words = true
    · obtain ⟨word, rfl, same⟩ := isHeader_eq_true.1 headed
      simp only [headed, if_true, map_eq_ok, instructions_eq_ok others]
      constructor
      · rintro ⟨given, ⟨lined, counted⟩, rfl⟩
        exact .program same lined (counted_toList.1 counted)
      · rintro ⟨-, lined, numbered⟩
        exact ⟨p.instructions.toList, ⟨lined, counted_toList.2 numbered⟩, rfl⟩
    · simp only [headed, Bool.false_eq_true, if_false]
      constructor
      · nofun
      · rintro ⟨same, -⟩
        exact absurd (isHeader_eq_true.2 ⟨_, rfl, same⟩) headed

theorem load_eq_error {e : LoadError} :
    load text = .error e ↔
      Refuses (Text.lines text.toList).length (significantLines text.toList) e := by
  have worded := worded_significantLines text.toList
  unfold load
  generalize significantLines text.toList = significant at worded ⊢
  cases significant with
  | nil =>
    constructor
    · rintro ⟨⟩
      exact .empty
    · rintro ⟨⟩
      rfl
  | cons first rest =>
    obtain ⟨line, words⟩ := first
    obtain ⟨-, others⟩ := List.forall_mem_cons.1 worded
    by_cases headed : isHeader words = true
    · obtain ⟨word, rfl, same⟩ := isHeader_eq_true.1 headed
      simp only [headed, if_true, map_eq_error, instructions_eq_error others]
      constructor
      · exact .line same
      · rintro (_ | other | ⟨-, reports⟩)
        · exact absurd same (Bool.eq_false_iff.1 (other word rfl))
        · exact reports
    · simp only [headed, Bool.false_eq_true, if_false]
      have other (word : String) (single : words = [word]) : sameLetters word header = false :=
        Bool.eq_false_iff.2 fun same => headed (isHeader_eq_true.2 ⟨word, single, same⟩)
      constructor
      · rintro ⟨⟩
        exact .header other
      · rintro (_ | other | ⟨same, -⟩)
        · rfl
        · exact absurd (isHeader_eq_true.2 ⟨_, rfl, same⟩) headed

/-! ## Texts that differ in case -/

inductive Recased : List String → List String → Prop
  | line {first other : String} {rest : List String} :
      sameLetters first other = true → Recased (first :: rest) (other :: rest)

inductive AlikeFaults : Fault → Fault → Prop
  | same {fault : Fault} : AlikeFaults fault fault
  | unknown {word other : String} :
      sameLetters word other = true → AlikeFaults (.unknownOpcode word) (.unknownOpcode other)

theorem Spells.recased {left right : List String} {i : Instruction} (recased : Recased left right)
    (spells : Spells left i) : Spells right i := by
  obtain ⟨same⟩ := recased
  obtain ⟨known, reads⟩ := spells
  exact .line (Text.sameLetters_trans known same) reads

theorem Offends.recased {left right : List String} {fault : Fault} (recased : Recased left right)
    (offends : Offends left fault) :
    ∃ other, Offends right other ∧ AlikeFaults fault other := by
  obtain ⟨same⟩ := recased
  cases offends with
  | unknown unknown =>
    refine ⟨_, .unknown fun opcode => Bool.eq_false_iff.2 fun known => ?_, .unknown same⟩
    have back := Text.sameLetters_trans known (Text.sameLetters_comm same)
    exact Bool.eq_false_iff.1 (unknown opcode) back
  | missing known short => exact ⟨_, .missing (Text.sameLetters_trans known same) short, .same⟩
  | unexpected known found =>
    exact ⟨_, .unexpected (Text.sameLetters_trans known same) found, .same⟩
  | invalid known count misfit =>
    exact ⟨_, .invalid (Text.sameLetters_trans known same) count misfit, .same⟩

theorem Reports.recased {left right : List (Nat × List String)} {e : LoadError}
    (recased : List.Forall₂ (fun a b => Recased a.2 b.2) left right) (reports : Reports left e) :
    ∃ (other : LoadError) (k : Nat), Reports right other ∧ AlikeFaults e.fault other.fault ∧
      (left.map Prod.fst)[k]? = some e.line ∧ (right.map Prod.fst)[k]? = some other.line := by
  induction reports generalizing right with
  | here offends =>
    obtain _ | ⟨same, -⟩ := recased
    obtain ⟨fault, offence, alike⟩ := offends.recased same
    exact ⟨_, 0, .here offence, alike, rfl, rfl⟩
  | later spells _ ih =>
    obtain _ | ⟨same, others⟩ := recased
    obtain ⟨other, k, reports, alike, there, here⟩ := ih others
    exact ⟨other, k + 1, .later (spells.recased same) reports, alike, there, here⟩

variable {left right : List (Nat × List String)}

theorem forall₂_spells_recased {given : List Instruction}
    (recased : List.Forall₂ (fun a b => Recased a.2 b.2) left right)
    (lined : List.Forall₂ (fun line i => Spells line.2 i) left given) :
    List.Forall₂ (fun line i => Spells line.2 i) right given := by
  induction recased generalizing given with
  | nil => exact lined
  | cons same _ ih =>
    obtain _ | ⟨spells, others⟩ := lined
    exact .cons (spells.recased same) (ih others)

theorem Loads.recased {p : Program}
    (recased : List.Forall₂ (fun a b => Recased a.2 b.2) left right) (loads : Loads left p) :
    Loads right p := by
  obtain ⟨headed, lined, numbered⟩ := loads
  obtain ⟨⟨number, words⟩, rest, same, others, rfl⟩ := List.forall₂_cons_left_iff.1 recased
  obtain ⟨letters⟩ : Recased [_] words := same
  exact .program (Text.sameLetters_trans (Text.sameLetters_comm letters) headed)
    (forall₂_spells_recased others lined) numbered

theorem Refuses.recased {count total : Nat} {e : LoadError}
    (recased : List.Forall₂ (fun a b => Recased a.2 b.2) left right)
    (refuses : Refuses count left e) :
    ∃ other, Refuses total right other ∧ AlikeFaults e.fault other.fault ∧
      (left = [] ∨ ∃ k : Nat,
        (left.map Prod.fst)[k]? = some e.line ∧ (right.map Prod.fst)[k]? = some other.line) := by
  cases refuses with
  | empty =>
    obtain _ | _ := recased
    exact ⟨_, .empty, .same, .inl rfl⟩
  | header other =>
    obtain ⟨⟨number, words⟩, rest, same, others, rfl⟩ := List.forall₂_cons_left_iff.1 recased
    obtain ⟨letters⟩ : Recased _ words := same
    refine ⟨_, .header fun word single => Bool.eq_false_iff.2 fun headed => ?_, .same,
      .inr ⟨0, rfl, rfl⟩⟩
    obtain ⟨rfl, rfl⟩ := List.cons.inj single
    exact Bool.eq_false_iff.1 (other _ rfl) (Text.sameLetters_trans letters headed)
  | line headed reports =>
    obtain ⟨⟨number, words⟩, rest, same, others, rfl⟩ := List.forall₂_cons_left_iff.1 recased
    obtain ⟨letters⟩ : Recased [_] words := same
    obtain ⟨other, k, again, alike, there, here⟩ := reports.recased others
    have back := Text.sameLetters_trans (Text.sameLetters_comm letters) headed
    exact ⟨other, .line back again, alike, .inr ⟨k + 1, there, here⟩⟩

/-- The significant lines of a text are those that hold words, numbered from one. A text is loaded
just if these are a header and instructions, and otherwise the first line that is not what it must
be is reported. Texts whose lines are equal up to the case of their first words give the same
program, or are refused alike in lines that correspond. -/
theorem load_reads_grammar (text : String) :
    ((∀ line words, (line, words) ∈ significantLines text.toList ↔
        words ≠ [] ∧ ∃ k source, line = k + 1 ∧ (Text.lines text.toList)[k]? = some source ∧
          lineWords source = words) ∧
      (significantLines text.toList).Pairwise fun a b => a.1 < b.1) ∧
    (∀ p, load text = .ok p ↔ Loads (significantLines text.toList) p) ∧
    (∀ e, load text = .error e ↔
      Refuses (Text.lines text.toList).length (significantLines text.toList) e) ∧
    ∀ other, List.Forall₂ (fun a b => Recased a.2 b.2) (significantLines text.toList)
        (significantLines other.toList) →
      (∀ p, load text = .ok p → load other = .ok p) ∧
      ∀ e, load text = .error e → ∃ e', load other = .error e' ∧ AlikeFaults e.fault e'.fault ∧
        (significantLines text.toList = [] ∨ ∃ k : Nat,
          ((significantLines text.toList).map Prod.fst)[k]? = some e.line ∧
          ((significantLines other.toList).map Prod.fst)[k]? = some e'.line) := by
  refine ⟨⟨fun _ _ => mem_significantLines, significantLines_increase _⟩, fun _ => load_eq_ok,
    fun _ => load_eq_error, fun other recased => ⟨fun p loaded => ?_, fun e refused => ?_⟩⟩
  · exact load_eq_ok.2 ((load_eq_ok.1 loaded).recased recased)
  · obtain ⟨e', refuses, alike, lines⟩ := (load_eq_error.1 refused).recased recased
    exact ⟨e', load_eq_error.2 refuses, alike, lines⟩

theorem load_reads_grammar_recased :
    load ".IPPcode22\n\n  WRITE\tint@1 # one" = .ok ⟨#[⟨.write, 1, [.literal ⟨.int, "1"⟩]⟩]⟩ ∧
    ∃ e, load ".IPPcode22\nBREAK\n\nFoo" = .error e ∧
      AlikeFaults (.unknownOpcode "foo") e.fault := by
  have written : load ".ippcode22\nwrite int@1" = .ok ⟨#[⟨.write, 1, [.literal ⟨.int, "1"⟩]⟩]⟩ := by
    rfl
  have unknown : load ".IPPcode22\nbreak\nfoo" = .error ⟨3, .unknownOpcode "foo"⟩ := by
    rfl
  have first : List.Forall₂ (fun a b => Recased a.2 b.2)
      (significantLines ".ippcode22\nwrite int@1".toList)
      (significantLines ".IPPcode22\n\n  WRITE\tint@1 # one".toList) :=
    .cons (.line rfl) (.cons (.line rfl) .nil)
  have second : List.Forall₂ (fun a b => Recased a.2 b.2)
      (significantLines ".IPPcode22\nbreak\nfoo".toList)
      (significantLines ".IPPcode22\nBREAK\n\nFoo".toList) :=
    .cons (.line rfl) (.cons (.line rfl) (.cons (.line rfl) .nil))
  refine ⟨((load_reads_grammar _).2.2.2 _ first).1 _ written, ?_⟩
  obtain ⟨e, refused, alike, -⟩ := ((load_reads_grammar _).2.2.2 _ second).2 _ unknown
  exact ⟨e, refused, alike⟩

end Source

end IppCode
