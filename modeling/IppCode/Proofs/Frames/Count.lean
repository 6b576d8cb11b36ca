import IppCode.Proofs.Frames.Slot
import Mathlib.Data.Set.Card

/-!
# The number of declared variables

No operation declares a name twice in one frame (`kept_distinct`). So the sizes of all frames add up
to the number of places and names at which there is a slot (`ncard_declared`).
-/

namespace IppCode

namespace Frame

variable {f : Frame} {name : String} {slots : List (String × Option Value)}

def names (f : Frame) : List String := f.slots.map Prod.fst

theorem length_names : f.names.length = f.size := List.length_map _

theorem find?_isSome : (f.find? name).isSome ↔ name ∈ f.names := by
  obtain ⟨slots⟩ := f
  induction slots with
  | nil => simp [find?, names]
  | cons slot slots ih =>
    obtain ⟨first, held⟩ := slot
    rw [find?_cons]
    by_cases here : name = first
    · simp [here, names]
    · simpa [here, names] using ih

theorem names_assign (x : Value) : (f.assign name x).names = f.names := by
  rw [names, assign, List.map_map, names]
  refine List.map_congr_left fun slot _ => ?_
  simp only [Function.comp_apply]
  split <;> rfl

theorem perm_insertSlot : (insertSlot name slots).Perm ((name, none) :: slots) := by
  induction slots with
  | nil => exact .refl _
  | cons slot slots ih =>
    rw [insertSlot]
    split
    · exact .refl _
    · exact (ih.cons slot).trans (.swap _ _ _)

theorem nodup_declare (distinct : f.names.Nodup) (fresh : f.find? name = none) :
    (f.declare name).names.Nodup := by
  have absent : name ∉ f.names := by
    rw [← find?_isSome, fresh]
    exact nofun
  have names : (f.declare name).names.Perm (name :: f.names) := perm_insertSlot.map Prod.fst
  exact names.nodup_iff.2 (List.nodup_cons.2 ⟨absent, distinct⟩)

end Frame

namespace Frames

variable {fs frames : Frames} {v : Variable} {x : Value} {place : Place} {name : String}

structure Distinct (fs : Frames) : Prop where
  global : fs.global.names.Nodup
  locals : ∀ f ∈ fs.locals, f.names.Nodup
  temporary : ∀ f ∈ fs.temporary, f.names.Nodup

/-- A property of frames that no operation on them breaks. -/
structure Kept (I : Frames → Prop) : Prop where
  create {fs : Frames} : I fs → I fs.create
  push {fs frames : Frames} : I fs → fs.push = .ok frames → I frames
  pop {fs frames : Frames} : I fs → fs.pop = .ok frames → I frames
  declare {fs frames : Frames} {v : Variable} : I fs → fs.declare v = .ok frames → I frames
  write {fs frames : Frames} {v : Variable} {x : Value} :
    I fs → fs.write v x = .ok frames → I frames

theorem Distinct.frame (distinct : fs.Distinct) {scope : Scope} {f : Frame}
    (here : fs.frame? scope = some f) : f.names.Nodup := by
  cases scope with
  | global => exact Option.some.inj here ▸ distinct.global
  | innermost => exact distinct.locals f (List.mem_of_head? here)
  | temporary => exact distinct.temporary f here

theorem Distinct.modify (distinct : fs.Distinct) {scope : Scope} {f : Frame}
    {change : Frame → Frame} (here : fs.frame? scope = some f)
    (changed : (change f).names.Nodup) : (fs.modify scope change).Distinct := by
  obtain ⟨global, locals, temporary⟩ := fs
  cases scope with
  | global =>
    obtain rfl := Option.some.inj here
    exact { distinct with global := changed }
  | innermost =>
    obtain ⟨outer, rfl⟩ := List.head?_eq_some_iff.1 here
    refine { distinct with locals := ?_ }
    exact List.forall_mem_cons.2 ⟨changed, fun g later => distinct.locals g (.tail _ later)⟩
  | temporary =>
    obtain rfl : temporary = some f := here
    refine { distinct with temporary := ?_ }
    rintro _ ⟨⟩
    exact changed

theorem kept_distinct : Kept Distinct where
  create distinct := { distinct with
    temporary := by
      rintro _ ⟨⟩
      exact List.nodup_nil }
  push distinct pushed := by
    obtain ⟨f, staged, rfl⟩ := push_eq_ok.1 pushed
    exact { distinct with
      locals := List.forall_mem_cons.2 ⟨distinct.temporary f staged, distinct.locals⟩
      temporary := nofun }
  pop distinct popped := by
    obtain ⟨f, outer, stack, rfl⟩ := pop_eq_ok.1 popped
    have locals := List.forall_mem_cons.1 (stack ▸ distinct.locals)
    refine { distinct with locals := locals.2, temporary := ?_ }
    rintro _ ⟨⟩
    exact locals.1
  declare distinct declared := by
    obtain ⟨f, here, fresh, rfl⟩ := declare_eq_ok.1 declared
    rw [at?_place] at here
    exact distinct.modify here (Frame.nodup_declare (distinct.frame here) fresh)
  write distinct written := by
    obtain ⟨f, here, -, rfl⟩ := write_eq_ok.1 written
    rw [at?_place] at here
    exact distinct.modify here (by rw [Frame.names_assign]; exact distinct.frame here)

theorem distinct_initial : initial.Distinct :=
  ⟨List.nodup_nil, nofun, nofun⟩

def declared (fs : Frames) : Set (Place × String) := {v | (fs.slotAt? v.1 v.2).isSome}

def variablesOf (place : Place) (f : Frame) : List (Place × String) := f.names.map (place, ·)

def localVariables : List Frame → List (Place × String)
  | [] => []
  | f :: outer => variablesOf (.level outer.length) f ++ localVariables outer

def declarations (fs : Frames) : List (Place × String) :=
  variablesOf .global fs.global ++
    ((fs.temporary.map (variablesOf .temporary)).getD [] ++ localVariables fs.locals)

theorem mem_variablesOf {f : Frame} {other : Place} :
    (other, name) ∈ variablesOf place f ↔ other = place ∧ (f.find? name).isSome := by
  rw [Frame.find?_isSome]
  simp [variablesOf, and_comm, eq_comm]

theorem mem_localVariables {locals : List Frame} :
    (place, name) ∈ localVariables locals ↔
      ∃ depth f, place = .level depth ∧ locals.reverse[depth]? = some f ∧
        (f.find? name).isSome := by
  induction locals with
  | nil => simp [localVariables]
  | cons f outer ih =>
    rw [localVariables, List.mem_append, mem_variablesOf, ih]
    constructor
    · rintro (⟨rfl, found⟩ | ⟨depth, g, rfl, there, found⟩)
      · exact ⟨_, f, rfl, by rw [getElem?_reverse_cons, if_pos rfl], found⟩
      · have inside : depth < outer.length := by
          simpa using (List.getElem?_eq_some_iff.1 there).1
        exact ⟨depth, g, rfl, by rw [getElem?_reverse_cons, if_neg (Nat.ne_of_lt inside), there],
          found⟩
    · rintro ⟨depth, g, rfl, there, found⟩
      rw [getElem?_reverse_cons] at there
      split at there
      · rename_i top
        obtain rfl := Option.some.inj there
        exact .inl ⟨by rw [top], found⟩
      · exact .inr ⟨depth, g, rfl, there, found⟩

theorem mem_declared :
    (place, name) ∈ fs.declared ↔ ∃ f, fs.at? place = some f ∧ (f.find? name).isSome := by
  change ((fs.at? place).bind (·.find? name)).isSome ↔ _
  cases fs.at? place <;> simp

theorem mem_declarations {v : Place × String} : v ∈ fs.declarations ↔ v ∈ fs.declared := by
  obtain ⟨place, name⟩ := v
  obtain ⟨global, locals, temporary⟩ := fs
  rw [declarations, List.mem_append, List.mem_append, mem_variablesOf, mem_localVariables,
    mem_declared]
  cases temporary with
  | none => cases place <;> simp [at?]
  | some f =>
    simp only [Option.map_some, Option.getD_some, mem_variablesOf]
    cases place <;> simp [at?]

theorem nodup_variablesOf {f : Frame} (distinct : f.names.Nodup) :
    (variablesOf place f).Nodup :=
  distinct.map fun _ _ => congrArg Prod.snd

theorem nodup_localVariables {locals : List Frame} (distinct : ∀ f ∈ locals, f.names.Nodup) :
    (localVariables locals).Nodup := by
  induction locals with
  | nil => exact List.nodup_nil
  | cons f outer ih =>
    obtain ⟨first, others⟩ := List.forall_mem_cons.1 distinct
    refine (nodup_variablesOf first).append (ih others) ?_
    rintro ⟨place, name⟩ here there
    obtain ⟨rfl, -⟩ := mem_variablesOf.1 here
    obtain ⟨depth, g, same, found, -⟩ := mem_localVariables.1 there
    have inside : depth < outer.length := by
      simpa using (List.getElem?_eq_some_iff.1 found).1
    exact Nat.ne_of_lt inside (Place.level.inj same).symm

theorem Distinct.nodup_declarations (distinct : fs.Distinct) : fs.declarations.Nodup := by
  obtain ⟨global, locals, temporary⟩ := fs
  refine (nodup_variablesOf distinct.global).append (.append ?_
    (nodup_localVariables distinct.locals) ?_) ?_
  · cases temporary with
    | none => exact List.nodup_nil
    | some f => exact nodup_variablesOf (distinct.temporary f rfl)
  · rintro ⟨place, name⟩ here there
    obtain ⟨depth, g, rfl, -⟩ := mem_localVariables.1 there
    cases temporary with
    | none => cases here
    | some f => cases (mem_variablesOf.1 here).1
  · rintro ⟨place, name⟩ here there
    obtain ⟨rfl, -⟩ := mem_variablesOf.1 here
    rcases List.mem_append.1 there with staged | inside
    · cases temporary with
      | none => cases staged
      | some f => cases (mem_variablesOf.1 staged).1
    · obtain ⟨depth, g, same, -⟩ := mem_localVariables.1 inside
      cases same

theorem length_localVariables {locals : List Frame} {n : Nat} :
    locals.foldr (fun f n => f.size + n) n = (localVariables locals).length + n := by
  induction locals with
  | nil => simp [localVariables]
  | cons f outer ih =>
    rw [List.foldr_cons, ih, localVariables, List.length_append, variablesOf, List.length_map,
      Frame.length_names, Nat.add_assoc]

theorem length_declarations : fs.declarations.length = fs.liveCount := by
  rw [liveCount, length_localVariables, declarations, List.length_append, List.length_append,
    variablesOf, List.length_map, Frame.length_names]
  cases fs.temporary with
  | none => simp [Nat.add_comm]
  | some f =>
    simp only [Option.map_some, Option.getD_some, variablesOf, List.length_map,
      Frame.length_names]
    omega

theorem ncard_declared (distinct : fs.Distinct) : fs.declared.ncard = fs.liveCount := by
  have listed : fs.declared = fs.declarations.toFinset := by
    ext v
    rw [List.coe_toFinset]
    exact mem_declarations.symm
  rw [listed, Set.ncard_coe_finset, List.toFinset_card_of_nodup distinct.nodup_declarations,
    length_declarations]

end Frames

end IppCode
