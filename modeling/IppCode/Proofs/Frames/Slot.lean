import IppCode.Frames

/-!
# Slots of frames

A frame is seen through the slots that its names have, and all frames through the slots at every
place. Each operation is stated by what it does to this view: an assignment changes one slot, a
declaration adds one, and the other operations move whole frames.
-/

namespace IppCode

namespace Frame

variable {f : Frame} {name other : String} {x : Value}

theorem find?_cons {slots : List (String × Option Value)} {slot : Option Value} :
    (⟨(other, slot) :: slots⟩ : Frame).find? name =
      if name = other then some slot else (⟨slots⟩ : Frame).find? name := by
  by_cases same : name = other
  · simp [find?, same]
  · have apart : (name == other) = false := by simpa using same
    simp [find?, List.lookup_cons, apart, same]

theorem find?_assign :
    (f.assign name x).find? other =
      if other = name then (f.find? other).map fun _ => some x else f.find? other := by
  obtain ⟨slots⟩ := f
  induction slots with
  | nil => simp [assign, find?]
  | cons slot slots ih =>
    obtain ⟨first, held⟩ := slot
    have tail : (assign ⟨(first, held) :: slots⟩ name x).slots =
        (first, if first = name then some x else held) :: (assign ⟨slots⟩ name x).slots := by
      by_cases here : first = name <;> simp [assign, here]
    rw [show assign ⟨(first, held) :: slots⟩ name x = ⟨_ :: _⟩ from congrArg Frame.mk tail,
      find?_cons, find?_cons]
    by_cases asked : other = first
    · subst asked
      by_cases here : other = name <;> simp [here]
    · simpa [asked] using ih

theorem find?_declare (fresh : f.find? name = none) :
    (f.declare name).find? other = if other = name then some none else f.find? other := by
  obtain ⟨slots⟩ := f
  induction slots with
  | nil => rw [declare, insertSlot, find?_cons]
  | cons slot slots ih =>
    obtain ⟨first, held⟩ := slot
    rw [find?_cons] at fresh
    split at fresh
    · cases fresh
    · rename_i apart
      rw [declare, insertSlot]
      split
      · rw [find?_cons]
      · have later := ih fresh
        rw [declare] at later
        rw [find?_cons, find?_cons, later]
        by_cases asked : other = first
        · subst asked
          simp [Ne.symm apart]
        · simp [asked]

end Frame

/-- Where a frame is. The levels of the local frames count from the outermost one, so that a frame
keeps its level while others are pushed onto it. -/
inductive Place where
  | global
  | level (depth : Nat)
  | temporary
deriving DecidableEq

namespace Frames

variable {fs frames : Frames} {v : Variable} {x : Value} {e : FrameError}

def at? (fs : Frames) : Place → Option Frame
  | .global => some fs.global
  | .level depth => fs.locals.reverse[depth]?
  | .temporary => fs.temporary

def slotAt? (fs : Frames) (place : Place) (name : String) : Option (Option Value) :=
  (fs.at? place).bind (·.find? name)

def place (fs : Frames) : Scope → Place
  | .global => .global
  | .innermost => .level (fs.locals.length - 1)
  | .temporary => .temporary

theorem at?_place (scope : Scope) : fs.at? (fs.place scope) = fs.frame? scope := by
  cases scope with
  | global | temporary => rfl
  | innermost =>
    obtain ⟨_, locals, _⟩ := fs
    cases locals with
    | nil => rfl
    | cons f rest => simp [at?, place, frame?]

theorem getElem?_reverse_cons {f : Frame} {outer : List Frame} {depth : Nat} :
    (f :: outer).reverse[depth]? =
      if depth = outer.length then some f else outer.reverse[depth]? := by
  rw [List.reverse_cons, List.getElem?_append, List.length_reverse]
  rcases Nat.lt_trichotomy depth outer.length with inside | rfl | beyond
  · rw [if_pos inside, if_neg (Nat.ne_of_lt inside)]
  · simp
  · have outside : outer.reverse[depth]? = none := by
      rw [List.getElem?_eq_none_iff, List.length_reverse]
      exact Nat.le_of_lt beyond
    have missing : [f][depth - outer.length]? = none := by
      rw [List.getElem?_eq_none_iff, List.length_singleton]
      omega
    rw [if_neg (Nat.lt_asymm beyond), if_neg (Nat.ne_of_gt beyond), outside, missing]

theorem at?_modify {scope : Scope} {change : Frame → Frame} {place : Place} :
    (fs.modify scope change).at? place =
      if place = fs.place scope then (fs.at? place).map change else fs.at? place := by
  obtain ⟨global, locals, temporary⟩ := fs
  cases scope with
  | global | temporary => cases place <;> simp [modify, at?, Frames.place]
  | innermost =>
    cases place with
    | global | temporary => simp [modify, at?, Frames.place]
    | level depth =>
      cases locals with
      | nil => simp [modify, at?]
      | cons f rest =>
        simp only [modify, at?, Frames.place, List.modifyHead_cons, getElem?_reverse_cons,
          List.length_cons, Nat.add_sub_cancel, Place.level.injEq]
        split <;> rfl

theorem slotAt?_modify {scope : Scope} {change : Frame → Frame} {place : Place} {name : String} :
    (fs.modify scope change).slotAt? place name =
      if place = fs.place scope then (fs.at? place).bind fun f => (change f).find? name
      else fs.slotAt? place name := by
  rw [slotAt?, at?_modify]
  split
  · rw [Option.bind_map]
    rfl
  · rfl

theorem push_eq_ok :
    fs.push = .ok frames ↔ ∃ f, fs.temporary = some f ∧
      frames = { fs with locals := f :: fs.locals, temporary := none } := by
  rw [push]
  cases fs.temporary <;> simp [eq_comm]

theorem pop_eq_ok :
    fs.pop = .ok frames ↔ ∃ f outer, fs.locals = f :: outer ∧
      frames = { fs with locals := outer, temporary := some f } := by
  rw [pop]
  cases fs.locals with
  | nil => simp
  | cons f outer =>
    rw [Except.ok.injEq]
    constructor
    · rintro rfl
      exact ⟨f, outer, rfl, rfl⟩
    · rintro ⟨_, _, ⟨⟩, rfl⟩
      rfl

structure SameShape (fs frames : Frames) : Prop where
  locals : frames.locals.length = fs.locals.length
  temporary : frames.temporary.isSome = fs.temporary.isSome

theorem sameShape_modify {scope : Scope} {change : Frame → Frame} :
    fs.SameShape (fs.modify scope change) := by
  cases scope with
  | global => exact ⟨rfl, rfl⟩
  | innermost => exact ⟨List.length_modifyHead, rfl⟩
  | temporary => exact ⟨rfl, Option.isSome_map⟩

/-- The slot of a variable that was not declared is there, without a value, and all else is as it
was. -/
structure Adds (fs : Frames) (v : Variable) (frames : Frames) : Prop extends
    SameShape fs frames where
  present : (fs.at? (fs.place v.scope)).isSome = true
  fresh : fs.slotAt? (fs.place v.scope) v.name = none
  added : frames.slotAt? (fs.place v.scope) v.name = some none
  others : ∀ place name, (place, name) ≠ (fs.place v.scope, v.name) →
    frames.slotAt? place name = fs.slotAt? place name

structure Sets (fs : Frames) (v : Variable) (frames : Frames) : Prop extends
    SameShape fs frames where
  declared : (fs.slotAt? (fs.place v.scope) v.name).isSome = true
  set : ∃ x, frames.slotAt? (fs.place v.scope) v.name = some (some x)
  others : ∀ place name, (place, name) ≠ (fs.place v.scope, v.name) →
    frames.slotAt? place name = fs.slotAt? place name

theorem declare_eq_ok :
    fs.declare v = .ok frames ↔ ∃ f, fs.at? (fs.place v.scope) = some f ∧ f.find? v.name = none ∧
      frames = fs.modify v.scope (·.declare v.name) := by
  rw [at?_place, declare, frame]
  cases fs.frame? v.scope with
  | none => simp [bind, Except.bind]
  | some f => cases found : f.find? v.name <;> simp [bind, Except.bind, found, eq_comm]

theorem write_eq_ok :
    fs.write v x = .ok frames ↔ ∃ f, fs.at? (fs.place v.scope) = some f ∧
      (f.find? v.name).isSome = true ∧ frames = fs.modify v.scope (·.assign v.name x) := by
  rw [at?_place, write, frame]
  cases fs.frame? v.scope with
  | none => simp [bind, Except.bind]
  | some f =>
    cases found : f.find? v.name with
    | none => simp [bind, Except.bind, found]
    | some slot => simpa [bind, Except.bind, found] using eq_comm

theorem slotAt?_modify_of_ne {f : Frame} {change : Frame → Frame} {place : Place} {name : String}
    (here : fs.at? (fs.place v.scope) = some f)
    (only : ∀ other, other ≠ v.name → (change f).find? other = f.find? other)
    (apart : (place, name) ≠ (fs.place v.scope, v.name)) :
    (fs.modify v.scope change).slotAt? place name = fs.slotAt? place name := by
  rw [slotAt?_modify]
  split
  · rename_i same
    have other : name ≠ v.name := fun equal => apart (by rw [same, equal])
    rw [slotAt?, same, here, Option.bind_some, Option.bind_some, only name other]
  · rfl

theorem Adds.of_declare (h : fs.declare v = .ok frames) : fs.Adds v frames := by
  obtain ⟨f, here, fresh, rfl⟩ := declare_eq_ok.1 h
  have only (other : String) (apart : other ≠ v.name) :
      (f.declare v.name).find? other = f.find? other := by
    rw [Frame.find?_declare fresh, if_neg apart]
  exact { sameShape_modify with
    present := by rw [here]; rfl
    fresh := by rw [slotAt?, here, Option.bind_some, fresh]
    added := by simp [slotAt?_modify, here, Frame.find?_declare fresh]
    others := fun _ _ => slotAt?_modify_of_ne here only }

theorem Sets.of_write (h : fs.write v x = .ok frames) : fs.Sets v frames := by
  obtain ⟨f, here, declared, rfl⟩ := write_eq_ok.1 h
  have only (other : String) (apart : other ≠ v.name) :
      (f.assign v.name x).find? other = f.find? other := by
    rw [Frame.find?_assign, if_neg apart]
  obtain ⟨slot, found⟩ := Option.isSome_iff_exists.1 declared
  exact { sameShape_modify with
    declared := by rw [slotAt?, here]; exact declared
    set := ⟨x, by rw [slotAt?_modify, if_pos rfl, here, Option.bind_some, Frame.find?_assign,
      if_pos rfl, found, Option.map_some]⟩
    others := fun _ _ => slotAt?_modify_of_ne here only }

end Frames

end IppCode
