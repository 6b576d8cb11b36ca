import IppCode.Statistics
import Mathlib.Data.List.Induction
import Mathlib.Data.List.Nodup

/-!
# Statistics of a sequence of instructions

The counters are functions of what was recorded. The number of instructions and the hits of each
count the records, without those of bookkeeping (`recorded_executed`, `mem_hits_recorded`), and the
peak is the highest of all (`recorded_peak`).
-/

namespace IppCode

structure Sample where
  opcode : Opcode
  order : UInt32
  live : Nat

def Sample.hits (sample : Sample) (key : Opcode × UInt32) : Bool :=
  !sample.opcode.isBookkeeping && (sample.opcode, sample.order) = key

namespace Statistics

variable {key other : Opcode × UInt32} {hits : List ((Opcode × UInt32) × Nat)}
  {samples : List Sample}

theorem lookup_cons_eq {count : Nat} :
    List.lookup other ((key, count) :: hits) =
      if other = key then some count else hits.lookup other := by
  by_cases same : other = key
  · simp [same]
  · have apart : (other == key) = false := by simpa using same
    simp [List.lookup_cons, apart, same]

theorem lookup_hit :
    (hit key hits).lookup other =
      if other = key then some ((hits.lookup key).getD 0 + 1) else hits.lookup other := by
  induction hits with
  | nil => rw [hit, lookup_cons_eq]; rfl
  | cons entry hits ih =>
    obtain ⟨first, count⟩ := entry
    rw [hit]
    by_cases here : first = key
    · subst here
      simp only [if_true, lookup_cons_eq, Option.getD_some]
      split <;> rfl
    · rw [if_neg here, lookup_cons_eq, lookup_cons_eq, lookup_cons_eq, if_neg (Ne.symm here), ih]
      by_cases found : other = first
      · subst found
        rw [if_pos rfl, if_neg here, if_pos rfl]
      · rw [if_neg found, if_neg found]

theorem keys_hit :
    (hit key hits).map Prod.fst =
      if key ∈ hits.map Prod.fst then hits.map Prod.fst else hits.map Prod.fst ++ [key] := by
  induction hits with
  | nil => simp [hit]
  | cons entry hits ih =>
    obtain ⟨first, count⟩ := entry
    rw [hit]
    by_cases here : first = key
    · simp [here]
    · rw [if_neg here, List.map_cons, ih, List.map_cons]
      by_cases later : key ∈ hits.map Prod.fst
      · simp [later]
      · simp [later, Ne.symm here]

theorem nodup_hit (distinct : (hits.map Prod.fst).Nodup) :
    ((hit key hits).map Prod.fst).Nodup := by
  rw [keys_hit]
  split
  · exact distinct
  · rename_i fresh
    exact distinct.append (List.nodup_singleton key) (by simpa using fresh)

theorem mem_iff_lookup (distinct : (hits.map Prod.fst).Nodup) {count : Nat} :
    (key, count) ∈ hits ↔ hits.lookup key = some count := by
  induction hits with
  | nil => simp
  | cons entry hits ih =>
    obtain ⟨first, held⟩ := entry
    rw [List.map_cons, List.nodup_cons] at distinct
    rw [lookup_cons_eq, List.mem_cons, Prod.mk.injEq, ih distinct.2]
    by_cases here : key = first
    · subst here
      have absent : hits.lookup key ≠ some count := fun found =>
        distinct.1 (List.mem_map.2 ⟨(key, count), (ih distinct.2).2 found, rfl⟩)
      simp [absent, eq_comm]
    · simp [here]

def recorded (samples : List Sample) : Statistics :=
  samples.foldl (fun s sample => s.record sample.opcode sample.order sample.live) initial

theorem recorded_snoc (sample : Sample) :
    recorded (samples ++ [sample]) =
      (recorded samples).record sample.opcode sample.order sample.live := by
  rw [recorded, List.foldl_append]
  rfl

theorem record_peak (s : Statistics) (opcode : Opcode) (order : UInt32) (live : Nat) :
    (s.record opcode order live).peak = max s.peak live := by
  rw [record]
  split <;> rfl

theorem record_executed (s : Statistics) (opcode : Opcode) (order : UInt32) (live : Nat) :
    (s.record opcode order live).executed =
      s.executed + if opcode.isBookkeeping then 0 else 1 := by
  rw [record]
  split <;> rfl

theorem record_hits (s : Statistics) (opcode : Opcode) (order : UInt32) (live : Nat) :
    (s.record opcode order live).hits =
      if opcode.isBookkeeping then s.hits else hit (opcode, order) s.hits := by
  rw [record]
  split <;> rfl

theorem recorded_executed :
    (recorded samples).executed = samples.countP fun sample => !sample.opcode.isBookkeeping := by
  induction samples using List.reverseRecOn with
  | nil => rfl
  | append_singleton samples sample ih =>
    rw [recorded_snoc, record_executed, ih, List.countP_append, List.countP_singleton]
    cases sample.opcode.isBookkeeping <;> rfl

theorem recorded_peak : (recorded samples).peak = (samples.map (·.live)).max?.getD 0 := by
  have folded : (recorded samples).peak = (samples.map (·.live)).foldl max 0 := by
    induction samples using List.reverseRecOn with
    | nil => rfl
    | append_singleton samples sample ih =>
      rw [recorded_snoc, record_peak, ih, List.map_append, List.foldl_append]
      rfl
  rw [folded]
  cases samples with
  | nil => rfl
  | cons sample samples => rw [List.map_cons, List.max?_cons', List.foldl_cons, Nat.zero_max]; rfl

theorem nodup_hits_recorded : ((recorded samples).hits.map Prod.fst).Nodup := by
  induction samples using List.reverseRecOn with
  | nil => exact List.nodup_nil
  | append_singleton samples sample ih =>
    rw [recorded_snoc, record_hits]
    split
    · exact ih
    · exact nodup_hit ih

theorem lookup_hits_recorded :
    (recorded samples).hits.lookup key =
      if samples.countP (·.hits key) = 0 then none else some (samples.countP (·.hits key)) := by
  induction samples using List.reverseRecOn with
  | nil => rfl
  | append_singleton samples sample ih =>
    rw [recorded_snoc, record_hits, List.countP_append, List.countP_singleton]
    by_cases counts : sample.opcode.isBookkeeping
    · simpa [counts, Sample.hits] using ih
    · rw [if_neg counts, lookup_hit]
      by_cases here : key = (sample.opcode, sample.order)
      · subst here
        have before : ((recorded samples).hits.lookup (sample.opcode, sample.order)).getD 0 =
            samples.countP (·.hits (sample.opcode, sample.order)) := by
          rw [ih]
          split
          · rename_i none
            exact none.symm
          · rfl
        simp [Sample.hits, counts, before]
      · have missed : sample.hits key = false := by simp [Sample.hits, Ne.symm here]
        simpa [here, missed] using ih

theorem mem_hits_recorded {count : Nat} :
    (key, count) ∈ (recorded samples).hits ↔
      0 < count ∧ count = samples.countP (·.hits key) := by
  rw [mem_iff_lookup nodup_hits_recorded, lookup_hits_recorded]
  split
  · constructor
    · exact nofun
    · omega
  · rw [Option.some.injEq]
    omega

end Statistics

end IppCode
