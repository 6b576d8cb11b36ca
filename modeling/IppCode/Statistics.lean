import IppCode.Opcode

/-!
# Statistics

Counters of a run: how many instructions were executed, how often each of them, and how many
variables were declared at most.
-/

namespace IppCode

inductive Counter where
  | executed
  | hottest
  | peak
deriving DecidableEq

def Counter.ofName? : String → Option Counter
  | "insts" => some .executed
  | "hot" => some .hottest
  | "vars" => some .peak
  | _ => none

def Counter.unknownMessage (name : String) : String := s!"unknown statistic '{name}'"

def Counter.decode (name : String) : Except String Counter :=
  match ofName? name with
  | some c => .ok c
  | none => .error (unknownMessage name)

/-- Instructions are told apart by operation code and order. -/
structure Statistics where
  executed : Nat
  hits : List ((Opcode × UInt32) × Nat)
  peak : Nat

namespace Statistics

def initial : Statistics := ⟨0, [], 0⟩

def hit (key : Opcode × UInt32) :
    List ((Opcode × UInt32) × Nat) → List ((Opcode × UInt32) × Nat)
  | [] => [(key, 1)]
  | (other, count) :: rest =>
    if other = key then (other, count + 1) :: rest else (other, count) :: hit key rest

/-- Account for an executed instruction, after which `live` variables are declared. -/
def record (s : Statistics) (opcode : Opcode) (order : UInt32) (live : Nat) : Statistics :=
  let peak := max s.peak live
  if opcode.isBookkeeping then { s with peak }
  else { executed := s.executed + 1, hits := hit (opcode, order) s.hits, peak }

/-- How often an operation code was executed under any order, and the lowest of its orders. -/
structure Tally where
  total : Nat
  lowest : UInt32
deriving DecidableEq

def tally? (s : Statistics) (opcode : Opcode) : Option Tally :=
  match s.hits.filter (·.1.1 = opcode) with
  | [] => none
  | first :: rest =>
    some (rest.foldl (fun t entry => ⟨t.total + entry.2, min t.lowest entry.1.2⟩)
      ⟨first.2, first.1.2⟩)

/-- The higher total wins, and of equal totals the lower order. -/
def hotter (a b : Tally) : Tally :=
  if a.total < b.total ∨ (a.total = b.total ∧ b.lowest < a.lowest) then b else a

/-- The lowest order of the operation code that was executed most often, zero if none was. -/
def hottest (s : Statistics) : UInt32 :=
  match Opcode.all.filterMap s.tally? with
  | [] => 0
  | first :: rest => (rest.foldl hotter first).lowest

def count (s : Statistics) : Counter → Nat
  | .executed => s.executed
  | .hottest => s.hottest.toNat
  | .peak => s.peak

/-- The selected counters, each on a line. -/
def report (s : Statistics) (selection : List Counter) : String :=
  String.join (selection.map fun counter => toString (s.count counter) ++ "\n")

end Statistics

end IppCode
