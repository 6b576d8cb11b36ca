import IppCode.Proofs.Source.Argument
import IppCode.Proofs.Statistics

/-!
# The hottest instruction

The report names the lowest order of the operation code that was recorded most often. Operation
codes that were recorded equally often are told apart by their lowest orders, so it does not matter
in which order instructions are recorded, hits are kept or tallies are compared
(`hottest_recorded`).
-/

namespace IppCode.Statistics

def Tally.AtMost (t u : Tally) : Prop :=
  t.total < u.total ∨ t.total = u.total ∧ u.lowest ≤ t.lowest

def hottestOf : List Tally → UInt32
  | [] => 0
  | first :: rest => (rest.foldl hotter first).lowest

section
variable {t u v : Tally} {tallies others : List Tally}

theorem Tally.AtMost.refl (t : Tally) : t.AtMost t :=
  .inr ⟨rfl, UInt32.le_refl _⟩

theorem Tally.AtMost.trans (first : t.AtMost u) (second : u.AtMost v) : t.AtMost v := by
  rcases first with less | ⟨equal, lower⟩
  · rcases second with less' | ⟨equal', -⟩
    · exact .inl (by omega)
    · exact .inl (by omega)
  · rcases second with less' | ⟨equal', lower'⟩
    · exact .inl (by omega)
    · exact .inr ⟨equal.trans equal', UInt32.le_trans lower' lower⟩

theorem Tally.AtMost.lowest_eq (first : t.AtMost u) (second : u.AtMost t) :
    t.lowest = u.lowest := by
  rcases first with less | ⟨equal, lower⟩
  · rcases second with less' | ⟨equal', -⟩ <;> omega
  · rcases second with less' | ⟨-, lower'⟩
    · omega
    · exact UInt32.le_antisymm lower' lower

theorem atMost_hotter (t u : Tally) : t.AtMost (hotter t u) ∧ u.AtMost (hotter t u) := by
  unfold hotter
  split
  · rename_i exceeded
    refine ⟨?_, .refl u⟩
    exact exceeded.imp_right fun tie => ⟨tie.1, UInt32.le_of_lt tie.2⟩
  · rename_i kept
    refine ⟨.refl t, ?_⟩
    rcases Nat.lt_trichotomy t.total u.total with less | equal | greater
    · exact absurd (.inl less) kept
    · exact .inr ⟨equal.symm, UInt32.not_lt.1 fun lower => kept (.inr ⟨equal, lower⟩)⟩
    · exact .inl greater

theorem foldl_hotter (first : Tally) (rest : List Tally) :
    rest.foldl hotter first ∈ first :: rest ∧
      ∀ t ∈ first :: rest, t.AtMost (rest.foldl hotter first) := by
  induction rest generalizing first with
  | nil => exact ⟨List.mem_singleton_self first, fun t only => List.mem_singleton.1 only ▸ .refl _⟩
  | cons next rest ih =>
    obtain ⟨chosen, greatest⟩ := ih (hotter first next)
    have upper : (hotter first next).AtMost (rest.foldl hotter (hotter first next)) :=
      greatest _ List.mem_cons_self
    obtain ⟨left, right⟩ := atMost_hotter first next
    constructor
    · rcases List.mem_cons.1 chosen with here | later
      · have either : hotter first next = first ∨ hotter first next = next := by
          unfold hotter
          split <;> simp
        rw [List.foldl_cons, here]
        rcases either with same | same <;> simp [same]
      · exact List.mem_cons_of_mem _ (List.mem_cons_of_mem _ later)
    · have others : ∀ t ∈ rest, t.AtMost (rest.foldl hotter (hotter first next)) :=
        fun t later => greatest t (List.mem_cons_of_mem _ later)
      exact List.forall_mem_cons.2
        ⟨left.trans upper, List.forall_mem_cons.2 ⟨right.trans upper, others⟩⟩

theorem exists_greatest (listed : t ∈ tallies) :
    ∃ u ∈ tallies, (∀ v ∈ tallies, v.AtMost u) ∧ hottestOf tallies = u.lowest := by
  cases tallies with
  | nil => cases listed
  | cons first rest =>
    obtain ⟨chosen, greatest⟩ := foldl_hotter first rest
    exact ⟨_, chosen, greatest, rfl⟩

theorem hottestOf_eq (listed : t ∈ tallies) (greatest : ∀ u ∈ tallies, u.AtMost t) :
    hottestOf tallies = t.lowest := by
  obtain ⟨u, chosen, upper, same⟩ := exists_greatest listed
  exact same.trans ((greatest u chosen).lowest_eq (upper t listed))

theorem hottestOf_congr (same : ∀ t, t ∈ tallies ↔ t ∈ others) :
    hottestOf tallies = hottestOf others := by
  cases tallies with
  | nil =>
    cases others with
    | nil => rfl
    | cons first rest => cases (same first).2 List.mem_cons_self
  | cons first rest =>
    have listed : first ∈ first :: rest := List.mem_cons_self
    obtain ⟨t, chosen, greatest, lowest⟩ := exists_greatest listed
    rw [lowest]
    exact (hottestOf_eq ((same t).1 chosen) fun u listed => greatest u ((same u).2 listed)).symm

end

def totalHits (opcode : Opcode) : List ((Opcode × UInt32) × Nat) → Nat
  | [] => 0
  | entry :: rest =>
    if entry.1.1 = opcode then entry.2 + totalHits opcode rest else totalHits opcode rest

/-- What a tally says of hits, in whatever order they are. -/
structure Tallies (hits : List ((Opcode × UInt32) × Nat)) (opcode : Opcode) (t : Tally) :
    Prop where
  total : t.total = totalHits opcode hits
  reached : ∃ count, ((opcode, t.lowest), count) ∈ hits
  least : ∀ order count, ((opcode, order), count) ∈ hits → t.lowest ≤ order

section
variable {s : Statistics} {opcode : Opcode} {t u : Tally} {key : Opcode × UInt32}
  {hits others : List ((Opcode × UInt32) × Nat)}

theorem totalHits_perm (perm : hits.Perm others) :
    totalHits opcode hits = totalHits opcode others := by
  induction perm with
  | nil => rfl
  | cons entry _ ih => rw [totalHits, totalHits, ih]
  | swap first second rest =>
    simp only [totalHits]
    split <;> split <;> omega
  | trans _ _ first second => exact first.trans second

theorem totalHits_hit :
    totalHits opcode (hit key hits) = totalHits opcode hits + if key.1 = opcode then 1 else 0 := by
  induction hits with
  | nil =>
    simp only [hit, totalHits]
    split <;> rfl
  | cons entry hits ih =>
    obtain ⟨first, count⟩ := entry
    rw [hit]
    split
    · rename_i same
      subst same
      simp only [totalHits]
      split <;> omega
    · simp only [totalHits, ih]
      split <;> omega

theorem Tallies.unique (first : Tallies hits opcode t) (second : Tallies hits opcode u) :
    t = u := by
  obtain ⟨count, listed⟩ := first.reached
  obtain ⟨count', listed'⟩ := second.reached
  have lowest := UInt32.le_antisymm (first.least _ _ listed') (second.least _ _ listed)
  have total := first.total.trans second.total.symm
  cases t
  cases u
  simp_all

theorem Tallies.perm (perm : hits.Perm others) (tallies : Tallies hits opcode t) :
    Tallies others opcode t where
  total := tallies.total.trans (totalHits_perm perm)
  reached := tallies.reached.imp fun _ listed => perm.mem_iff.1 listed
  least order count listed := tallies.least order count (perm.mem_iff.2 listed)

def Tally.add (t : Tally) (entry : (Opcode × UInt32) × Nat) : Tally :=
  ⟨t.total + entry.2, min t.lowest entry.1.2⟩

theorem foldl_add (own : ∀ entry ∈ hits, entry.1.1 = opcode) :
    (hits.foldl Tally.add t).total = t.total + totalHits opcode hits ∧
      ((hits.foldl Tally.add t).lowest = t.lowest ∨
        ∃ entry ∈ hits, entry.1.2 = (hits.foldl Tally.add t).lowest) ∧
      (hits.foldl Tally.add t).lowest ≤ t.lowest ∧
      ∀ entry ∈ hits, (hits.foldl Tally.add t).lowest ≤ entry.1.2 := by
  induction hits generalizing t with
  | nil => exact ⟨rfl, .inl rfl, UInt32.le_refl _, nofun⟩
  | cons entry hits ih =>
    obtain ⟨here, later⟩ := List.forall_mem_cons.1 own
    obtain ⟨total, reached, below, least⟩ := ih (t := t.add entry) later
    have left : (t.add entry).lowest ≤ t.lowest := Std.min_le_left
    have right : (t.add entry).lowest ≤ entry.1.2 := Std.min_le_right
    rw [List.foldl_cons]
    refine ⟨?_, ?_, UInt32.le_trans below left,
      List.forall_mem_cons.2 ⟨UInt32.le_trans below right, least⟩⟩
    · rw [total, totalHits, if_pos here, Tally.add, Nat.add_assoc]
    · rcases reached with same | ⟨found, listed, same⟩
      · rcases Std.min_eq_or (a := t.lowest) (b := entry.1.2) with first | second
        · exact .inl (same.trans first)
        · exact .inr ⟨entry, List.mem_cons_self, (same.trans second).symm⟩
      · exact .inr ⟨found, List.mem_cons_of_mem _ listed, same⟩

theorem totalHits_filter :
    totalHits opcode (hits.filter (·.1.1 = opcode)) = totalHits opcode hits := by
  induction hits with
  | nil => rfl
  | cons entry hits ih =>
    by_cases same : entry.1.1 = opcode <;> simp [totalHits, same, ih]

theorem tallies_of_tally? (found : s.tally? opcode = some t) : Tallies s.hits opcode t := by
  unfold tally? at found
  split at found
  · cases found
  · rename_i first rest entries
    obtain rfl := Option.some.inj found
    have own (entry) : entry ∈ first :: rest ↔ entry ∈ s.hits ∧ entry.1.1 = opcode := by
      simp [← entries, List.mem_filter]
    obtain ⟨front, others⟩ := List.forall_mem_cons.1 fun entry listed => ((own entry).1 listed).2
    obtain ⟨total, reached, below, least⟩ := foldl_add (t := ⟨first.2, first.1.2⟩) others
    constructor
    · rw [← totalHits_filter, entries, totalHits, if_pos front]
      exact total
    · have held (entry) (listed : entry ∈ first :: rest) :
          ∃ count, ((opcode, entry.1.2), count) ∈ s.hits := by
        obtain ⟨inside, rfl⟩ := (own entry).1 listed
        exact ⟨entry.2, inside⟩
      rcases reached with same | ⟨entry, later, same⟩
      · exact same ▸ held first List.mem_cons_self
      · exact same ▸ held entry (List.mem_cons_of_mem _ later)
    · intro order count listed
      rcases List.mem_cons.1 ((own _).2 ⟨listed, rfl⟩) with same | later
      · subst same
        exact below
      · exact least _ later

theorem exists_tally {order : UInt32} {count : Nat} (listed : ((opcode, order), count) ∈ s.hits) :
    ∃ t, s.tally? opcode = some t := by
  unfold tally?
  split
  · rename_i empty
    exact absurd (decide_eq_true rfl) (List.filter_eq_nil_iff.1 empty _ listed)
  · exact ⟨_, rfl⟩

theorem tally?_eq_some : s.tally? opcode = some t ↔ Tallies s.hits opcode t := by
  refine ⟨tallies_of_tally?, fun tallies => ?_⟩
  obtain ⟨count, listed⟩ := tallies.reached
  obtain ⟨u, found⟩ := exists_tally listed
  rw [found, (tallies_of_tally? found).unique tallies]

theorem hottest_eq (s : Statistics) : s.hottest = hottestOf (Opcode.all.filterMap s.tally?) := rfl

theorem mem_tallies :
    t ∈ Opcode.all.filterMap s.tally? ↔ ∃ opcode, Tallies s.hits opcode t := by
  rw [List.mem_filterMap]
  constructor
  · rintro ⟨opcode, -, found⟩
    exact ⟨opcode, tally?_eq_some.1 found⟩
  · rintro ⟨opcode, tallies⟩
    exact ⟨opcode, Opcode.mem_all opcode, tally?_eq_some.2 tallies⟩

end

def IsLowest (samples : List Sample) (opcode : Opcode) (order : UInt32) : Prop :=
  (∃ sample ∈ samples, sample.opcode = opcode ∧ sample.order = order) ∧
    ∀ sample ∈ samples, sample.opcode = opcode → order ≤ sample.order

def total (samples : List Sample) (opcode : Opcode) : Nat :=
  samples.countP (·.opcode = opcode)

section
variable {opcode : Opcode} {order : UInt32} {t : Tally} {samples others : List Sample}

theorem totalHits_recorded (counted : opcode.isBookkeeping = false) :
    totalHits opcode (recorded samples).hits = total samples opcode := by
  induction samples using List.reverseRecOn with
  | nil => rfl
  | append_singleton samples sample ih =>
    rw [recorded_snoc, record_hits, total, List.countP_append, List.countP_singleton]
    split
    · rename_i bookkeeping
      have apart : sample.opcode ≠ opcode := by
        rintro rfl
        simp [bookkeeping] at counted
      simpa [apart, total] using ih
    · rw [totalHits_hit, ih, total]
      simp

theorem exists_hit_recorded :
    (∃ count, ((opcode, order), count) ∈ (recorded samples).hits) ↔
      opcode.isBookkeeping = false ∧
        ∃ sample ∈ samples, sample.opcode = opcode ∧ sample.order = order := by
  have hits (sample : Sample) : sample.hits (opcode, order) = true ↔
      sample.opcode.isBookkeeping = false ∧ sample.opcode = opcode ∧ sample.order = order := by
    simp [Sample.hits]
  simp only [mem_hits_recorded]
  constructor
  · rintro ⟨count, positive, rfl⟩
    obtain ⟨sample, listed, hit⟩ := List.countP_pos_iff.1 positive
    obtain ⟨counted, rfl, rfl⟩ := (hits sample).1 hit
    exact ⟨counted, sample, listed, rfl, rfl⟩
  · rintro ⟨counted, sample, listed, rfl, rfl⟩
    exact ⟨_, List.countP_pos_iff.2 ⟨sample, listed, (hits sample).2 ⟨counted, rfl, rfl⟩⟩, rfl⟩

theorem tallies_recorded :
    Tallies (recorded samples).hits opcode t ↔
      opcode.isBookkeeping = false ∧ t.total = total samples opcode ∧
        IsLowest samples opcode t.lowest := by
  constructor
  · intro tallies
    obtain ⟨counted, reached⟩ := exists_hit_recorded.1 tallies.reached
    refine ⟨counted, tallies.total.trans (totalHits_recorded counted), reached, ?_⟩
    intro sample listed same
    obtain ⟨count, hit⟩ := exists_hit_recorded.2 ⟨counted, sample, listed, same, rfl⟩
    exact tallies.least _ _ hit
  · rintro ⟨counted, total, reached, least⟩
    refine ⟨total.trans (totalHits_recorded counted).symm,
      exists_hit_recorded.2 ⟨counted, reached⟩, ?_⟩
    intro order count listed
    obtain ⟨-, sample, inside, same, rfl⟩ := exists_hit_recorded.1 ⟨count, listed⟩
    exact least sample inside same

theorem Tallies.of_perm (perm : samples.Perm others)
    (tallies : Tallies (recorded samples).hits opcode t) :
    Tallies (recorded others).hits opcode t := by
  obtain ⟨counted, sum, ⟨sample, listed, reached⟩, least⟩ := tallies_recorded.1 tallies
  refine tallies_recorded.2 ⟨counted, sum.trans (perm.countP_eq _), ?_, ?_⟩
  · exact ⟨sample, perm.mem_iff.1 listed, reached⟩
  · exact fun sample listed => least sample (perm.mem_iff.2 listed)

theorem hottest_of_perm (perm : samples.Perm others) :
    (recorded samples).hottest = (recorded others).hottest := by
  rw [hottest_eq, hottest_eq]
  apply hottestOf_congr
  intro t
  rw [mem_tallies, mem_tallies]
  exact exists_congr fun opcode => ⟨.of_perm perm, .of_perm perm.symm⟩

theorem hottest_of_bookkeeping (only : ∀ sample ∈ samples, sample.opcode.isBookkeeping = true) :
    (recorded samples).hottest = 0 := by
  rw [hottest_eq]
  cases tallies : Opcode.all.filterMap (recorded samples).tally? with
  | nil => rfl
  | cons t rest =>
    obtain ⟨opcode, found⟩ := mem_tallies.1 (tallies ▸ List.mem_cons_self)
    obtain ⟨counted, -, ⟨sample, listed, rfl, -⟩, -⟩ := tallies_recorded.1 found
    simp [only sample listed] at counted

/-- The order is the lowest of the operation code, and no other was recorded more often, or equally
often with a lower order. -/
structure IsHottest (samples : List Sample) (opcode : Opcode) (order : UInt32) : Prop where
  counted : opcode.isBookkeeping = false
  lowest : IsLowest samples opcode order
  greatest : ∀ other lowest, other.isBookkeeping = false → IsLowest samples other lowest →
    total samples other < total samples opcode ∨
      total samples other = total samples opcode ∧ order ≤ lowest

theorem hottest_eq_iff (counted : ∃ sample ∈ samples, sample.opcode.isBookkeeping = false) :
    (recorded samples).hottest = order ↔ ∃ opcode, IsHottest samples opcode order := by
  rw [hottest_eq]
  constructor
  · intro same
    obtain ⟨sample, inside, counted⟩ := counted
    obtain ⟨count, hit⟩ := exists_hit_recorded.2 ⟨counted, sample, inside, rfl, rfl⟩
    obtain ⟨t, found⟩ := exists_tally hit
    obtain ⟨u, chosen, greatest, lowest⟩ :=
      exists_greatest (mem_tallies.2 ⟨_, tally?_eq_some.1 found⟩)
    obtain ⟨opcode, tallies⟩ := mem_tallies.1 chosen
    obtain ⟨counted, sum, reached⟩ := tallies_recorded.1 tallies
    rw [same] at lowest
    subst lowest
    refine ⟨opcode, counted, reached, fun other least counted' lowest' => ?_⟩
    have atMost := greatest ⟨total samples other, least⟩
      (mem_tallies.2 ⟨other, tallies_recorded.2 ⟨counted', rfl, lowest'⟩⟩)
    unfold Tally.AtMost at atMost
    rwa [sum] at atMost
  · rintro ⟨opcode, hottest⟩
    have listed : (⟨total samples opcode, order⟩ : Tally) ∈
        Opcode.all.filterMap (recorded samples).tally? :=
      mem_tallies.2 ⟨opcode, tallies_recorded.2 ⟨hottest.counted, rfl, hottest.lowest⟩⟩
    apply hottestOf_eq listed
    intro u other
    obtain ⟨opcode', found⟩ := mem_tallies.1 other
    obtain ⟨counted', sum, lowest⟩ := tallies_recorded.1 found
    unfold Tally.AtMost
    rw [sum]
    exact hottest.greatest opcode' u.lowest counted' lowest

end

/-- The hottest instruction does not depend on the order of what was recorded, of the hits or of the
tallies that they are grouped into. -/
theorem hottest_recorded (samples : List Sample) :
    ((∀ sample ∈ samples, sample.opcode.isBookkeeping = true) →
      (recorded samples).hottest = 0) ∧
    ((∃ sample ∈ samples, sample.opcode.isBookkeeping = false) →
      ∀ order, (recorded samples).hottest = order ↔ ∃ opcode, IsHottest samples opcode order) ∧
    (∀ others : List Sample, samples.Perm others →
      (recorded others).hottest = (recorded samples).hottest) ∧
    ∀ (hits : List ((Opcode × UInt32) × Nat)) (tallies : List (Opcode × Tally)),
      (recorded samples).hits.Perm hits →
      (∀ opcode t, (opcode, t) ∈ tallies ↔
        ({ recorded samples with hits } : Statistics).tally? opcode = some t) →
      hottestOf (tallies.map Prod.snd) = (recorded samples).hottest := by
  refine ⟨hottest_of_bookkeeping, fun counted order => hottest_eq_iff counted,
    fun others perm => (hottest_of_perm perm).symm, fun hits tallies perm grouped => ?_⟩
  rw [hottest_eq]
  apply hottestOf_congr
  intro t
  rw [mem_tallies, List.mem_map]
  constructor
  · rintro ⟨⟨opcode, t⟩, listed, rfl⟩
    exact ⟨opcode, (tally?_eq_some.1 ((grouped opcode t).1 listed)).perm perm.symm⟩
  · rintro ⟨opcode, found⟩
    exact ⟨(opcode, t), (grouped opcode t).2 (tally?_eq_some.2 (found.perm perm)), rfl⟩

theorem hottest_recorded_tie :
    ∃ samples : List Sample,
      samples = [⟨.move, 4, 0⟩, ⟨.clear, 3, 0⟩, ⟨.label, 1, 0⟩, ⟨.clear, 7, 0⟩, ⟨.move, 2, 0⟩,
        ⟨.move, 3, 0⟩, ⟨.clear, 3, 0⟩] ∧
      (∃ opcode, IsHottest samples opcode 2) ∧ (recorded samples.reverse).hottest = 2 ∧
      (recorded [⟨.label, 1, 0⟩]).hottest = 0 := by
  let samples : List Sample := [⟨.move, 4, 0⟩, ⟨.clear, 3, 0⟩, ⟨.label, 1, 0⟩, ⟨.clear, 7, 0⟩,
    ⟨.move, 2, 0⟩, ⟨.move, 3, 0⟩, ⟨.clear, 3, 0⟩]
  have found : (recorded samples).hottest = 2 := by decide
  obtain ⟨-, hottest, perm, -⟩ := hottest_recorded samples
  have counted : ∃ sample ∈ samples, sample.opcode.isBookkeeping = false :=
    ⟨_, List.mem_cons_self, rfl⟩
  exact ⟨samples, rfl, (hottest counted 2).1 found,
    (perm _ (List.reverse_perm samples).symm).trans found,
    (hottest_recorded [⟨.label, 1, 0⟩]).1 (by decide)⟩

end IppCode.Statistics
