import IppCode.Command.World

/-!
# Files

What a path leads to depends on the nodes only. A file that was saved holds what was saved in it
(`read_save`): saving makes no path shorter, because directories stay directories.
-/

namespace IppCode.Command.World

variable {w v saved : World} {place : Place} {parts : List RawText} {name : RawText}
  {bytes : List UInt8}

theorem look_congr (same : v.nodes = w.nodes) (place : Place) : v.look place = w.look place := by
  simp only [look, node?, same]

theorem walk_congr (same : v.nodes = w.nodes) : v.walk place parts = w.walk place parts := by
  induction parts generalizing place with
  | nil => rfl
  | cons part rest ih => simp only [walk, look_congr same, ih]

theorem find_congr (same : v.nodes = w.nodes) : v.find name = w.find name := by
  simp only [find, walk_congr same, look_congr same]

theorem read_congr (same : v.nodes = w.nodes) : v.read name = w.read name := by
  simp only [read, find_congr same]

theorem look_eq_ok {node : Option Node} (h : w.look place = .ok node) :
    place.isOverlong = false ∧ w.node? place = node := by
  unfold look at h
  split at h
  · cases h
  · rename_i short
    exact ⟨by simpa using short, by simpa using h⟩

theorem put_eq_ok (h : w.put place bytes = .ok saved) :
    (w.look place = .ok none ∧ saved = { w with nodes := w.nodes ++ [(place, .file bytes)] }) ∨
    ((∃ old, w.look place = .ok (some (.file old))) ∧ saved = { w with
      nodes := w.nodes.map fun entry =>
        if entry.1 = place then (place, .file bytes) else entry }) := by
  simp only [put, bind, Except.bind] at h
  cases looked : w.look place with
  | error e => simp [looked] at h
  | ok node =>
    rcases node with _ | old | _
    · simp only [looked, Except.ok.injEq] at h
      exact .inl ⟨rfl, h.symm⟩
    · simp only [looked, Except.ok.injEq] at h
      exact .inr ⟨⟨old, rfl⟩, h.symm⟩
    · simp [looked] at h

theorem save_eq_ok (h : w.save name bytes = .ok saved) :
    ∃ path place, Path.ofBytes name = .ok path ∧ w.walk path.start path.parts = .ok place ∧
      path.asDirectory = false ∧ w.put place bytes = .ok saved := by
  simp only [save, bind, Except.bind] at h
  cases text : Path.ofBytes name with
  | error e => simp [text] at h
  | ok path =>
    cases walked : w.walk path.start path.parts with
    | error e => simp [text, walked] at h
    | ok place =>
      cases directory : path.asDirectory with
      | true => simp [text, walked, directory] at h
      | false =>
        simp only [text, walked, directory] at h
        exact ⟨path, place, rfl, walked, directory, h⟩

theorem lookup_replace {entries : List (Place × Node)} {node : Node} {other : Place} :
    (entries.map fun entry => if entry.1 = place then (place, node) else entry).lookup other =
      if other = place then (entries.lookup other).map fun _ => node
      else entries.lookup other := by
  induction entries with
  | nil => simp
  | cons entry entries ih =>
    obtain ⟨name, old⟩ := entry
    by_cases here : other = name
    · subst here
      by_cases target : other = place <;> simp [target]
    · have elsewhere : (other == name) = false := by simpa using here
      by_cases target : name = place
      · subst target
        simp only [List.map_cons, if_pos, List.lookup_cons, elsewhere, ih]
      · simp only [List.map_cons, if_neg target, List.lookup_cons, elsewhere, ih]

theorem any_reaches_replace {entries : List (Place × Node)} {node : Node} {other : Place} :
    (entries.map fun entry => if entry.1 = place then (place, node) else entry).any
        (fun entry => other.reaches entry.1) =
      entries.any fun entry => other.reaches entry.1 := by
  rw [List.any_map]
  congr 1
  funext entry
  by_cases target : entry.1 = place <;> simp [target]

theorem node?_eq_file : w.node? place = some (.file bytes) ↔
    place.names ≠ [] ∧ w.nodes.lookup place = some (.file bytes) := by
  unfold node?
  cases place.names <;> cases w.nodes.lookup place <;> simp

theorem node?_eq_none (h : w.node? place = none) :
    place.names ≠ [] ∧ w.nodes.lookup place = none := by
  unfold node? at h
  cases names : place.names <;> cases entry : w.nodes.lookup place <;> simp_all

theorem node?_put (h : w.put place bytes = .ok saved) :
    saved.node? place = some (.file bytes) ∧
      ∀ other, w.node? other = some .directory → saved.node? other = some .directory := by
  obtain ⟨looked, rfl⟩ | ⟨⟨old, looked⟩, rfl⟩ := put_eq_ok h
  · -- The new entry can only hide a place without a node, and no directory lies there.
    have free := (look_eq_ok looked).2
    obtain ⟨named, absent⟩ := node?_eq_none free
    refine ⟨node?_eq_file.2 ⟨named, by simp [List.lookup_append, absent]⟩, fun other before => ?_⟩
    have distinct : other ≠ place := fun same => by simp [same, free] at before
    have appended : (w.nodes ++ [(place, Node.file bytes)]).lookup other = w.nodes.lookup other := by
      simp [List.lookup_append, List.lookup_cons, beq_eq_false_iff_ne.2 distinct]
    unfold node? at before ⊢
    split
    · rfl
    · rename_i named
      rw [if_neg named] at before
      simp only [appended]
      cases entry : w.nodes.lookup other with
      | some node => simpa [entry] using before
      | none =>
        simp only [entry] at before ⊢
        split at before
        · rename_i inside
          rw [List.any_append, inside, Bool.true_or, if_pos rfl]
        · cases before
  · have file := (look_eq_ok looked).2
    obtain ⟨named, present⟩ := node?_eq_file.1 file
    refine ⟨node?_eq_file.2 ⟨named, by simp [lookup_replace, present]⟩, fun other before => ?_⟩
    have distinct : other ≠ place := fun same => by simp [same, file] at before
    simpa only [node?, lookup_replace, if_neg distinct, any_reaches_replace] using before

theorem look_of_directory {other : Place} (h : w.put place bytes = .ok saved)
    (looked : w.look other = .ok (some .directory)) : saved.look other = .ok (some .directory) := by
  obtain ⟨short, node⟩ := look_eq_ok looked
  simp [look, short, (node?_put h).2 other node]

theorem walk_put (h : w.put place bytes = .ok saved) {start target : Place}
    (walked : w.walk start parts = .ok target) : saved.walk start parts = .ok target := by
  induction parts generalizing start with
  | nil => exact walked
  | cons part rest ih =>
    rw [walk] at walked ⊢
    split at walked
    · cases walked
    · cases walked
    · cases walked
    · rename_i looked
      rw [look_of_directory h looked]
      exact ih walked

theorem short_of_put (h : w.put place bytes = .ok saved) : place.isOverlong = false := by
  obtain ⟨looked, -⟩ | ⟨⟨old, looked⟩, -⟩ := put_eq_ok h <;> exact (look_eq_ok looked).1

theorem read_save (h : w.save name bytes = .ok saved) : saved.read name = .ok bytes := by
  obtain ⟨path, place, text, walked, file, put⟩ := save_eq_ok h
  have found : saved.look place = .ok (some (.file bytes)) := by
    simp [look, short_of_put put, (node?_put put).1]
  simp [read, find, bind, Except.bind, text, walk_put put walked, found, file]

end IppCode.Command.World
