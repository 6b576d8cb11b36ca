import IppCode.Proofs.Frames.Slot

/-!
# Frames with identity

Frames as objects. To create a frame is to make an object that there was not before, to push or pop
one is to give an object another role, and what an object holds is read off the log of what was done
to it. The frames of a machine answer any sequence of operations as the objects do
(`Frames.refine_objects`).
-/

namespace IppCode

/-- The operations on frames, whatever keeps them. -/
class FrameStore (σ : Type) where
  create : σ → σ
  push : σ → Except FrameError σ
  pop : σ → Except FrameError σ
  declare : σ → Variable → Except FrameError σ
  write : σ → Variable → Value → Except FrameError σ
  read : σ → Variable → Except FrameError Value
  slot : σ → Variable → Except FrameError (Option Value)

inductive FrameOp where
  | create
  | push
  | pop
  | declare (v : Variable)
  | write (v : Variable) (x : Value)
  | read (v : Variable)
  | slot (v : Variable)

inductive Reply where
  | done
  | value (x : Value)
  | slot (held : Option Value)
deriving DecidableEq

namespace FrameStore

variable {σ : Type}

def commit (s : σ) : Except FrameError σ → σ × Except FrameError Reply
  | .ok after => (after, .ok .done)
  | .error e => (s, .error e)

def perform [FrameStore σ] (s : σ) : FrameOp → σ × Except FrameError Reply
  | .create => (create s, .ok .done)
  | .push => commit s (push s)
  | .pop => commit s (pop s)
  | .declare v => commit s (declare s v)
  | .write v x => commit s (write s v x)
  | .read v => (s, (read s v).map .value)
  | .slot v => (s, (slot s v).map .slot)

def performAll [FrameStore σ] (s : σ) : List FrameOp → σ × List (Except FrameError Reply)
  | [] => (s, [])
  | op :: ops =>
    let (next, reply) := perform s op
    let (last, replies) := performAll next ops
    (last, reply :: replies)

end FrameStore

instance : FrameStore Frames where
  create := Frames.create
  push := Frames.push
  pop := Frames.pop
  declare := Frames.declare
  write := Frames.write
  read := Frames.read
  slot := Frames.slot

inductive Deed where
  | declared (name : String)
  | wrote (name : String) (x : Value)
deriving DecidableEq

structure Objects where
  global : Nat
  locals : List Nat
  temporary : Option Nat
  /-- How many objects were made. They are numbered in turn. -/
  made : Nat
  /-- What was done to which object, the last deed first. -/
  log : List (Nat × Deed)

namespace Objects

def initial : Objects := ⟨0, [], none, 1, []⟩

def object? (r : Objects) : Scope → Option Nat
  | .global => some r.global
  | .innermost => r.locals.head?
  | .temporary => r.temporary

def object (r : Objects) (scope : Scope) : Except FrameError Nat :=
  match r.object? scope with
  | some o => .ok o
  | none => .error (.missingFrame scope)

def written? (o : Nat) (name : String) : List (Nat × Deed) → Option Value
  | [] => none
  | (other, .wrote target x) :: earlier =>
    if other = o ∧ target = name then some x else written? o name earlier
  | (_, .declared _) :: earlier => written? o name earlier

def slot? (r : Objects) (o : Nat) (name : String) : Option (Option Value) :=
  if (o, .declared name) ∈ r.log then some (written? o name r.log) else none

def note (r : Objects) (o : Nat) (deed : Deed) : Objects := { r with log := (o, deed) :: r.log }

def slot (r : Objects) (v : Variable) : Except FrameError (Option Value) := do
  let o ← r.object v.scope
  match r.slot? o v.name with
  | some held => .ok held
  | none => .error (.undefined v)

instance : FrameStore Objects where
  create r := { r with temporary := some r.made, made := r.made + 1 }
  push r :=
    match r.temporary with
    | some o => .ok { r with locals := o :: r.locals, temporary := none }
    | none => .error (.missingFrame .temporary)
  pop r :=
    match r.locals with
    | o :: outer => .ok { r with locals := outer, temporary := some o }
    | [] => .error (.missingFrame .innermost)
  declare r v := do
    let o ← r.object v.scope
    match r.slot? o v.name with
    | some _ => .error (.redefined v)
    | none => .ok (r.note o (.declared v.name))
  write r v x := do
    let o ← r.object v.scope
    match r.slot? o v.name with
    | some _ => .ok (r.note o (.wrote v.name x))
    | none => .error (.undefined v)
  read r v := do
    match ← r.slot v with
    | some x => .ok x
    | none => .error (.uninitialized v)
  slot := Objects.slot

variable {r : Objects} {o other : Nat} {name asked : String} {x : Value} {deed : Deed}

theorem written?_eq_none {log : List (Nat × Deed)} :
    written? o name log = none ↔ ∀ x, (o, .wrote name x) ∉ log := by
  induction log with
  | nil => simp [written?]
  | cons entry earlier ih =>
    obtain ⟨object, declared | ⟨target, value⟩⟩ := entry
    · simpa [written?] using ih
    · by_cases here : object = o ∧ target = name
      · obtain ⟨rfl, rfl⟩ := here
        simp only [written?, and_self, if_true, reduceCtorEq, false_iff]
        exact fun never => never value List.mem_cons_self
      · have apart (y : Value) : (o, Deed.wrote name y) ≠ (object, .wrote target value) := by
          rintro ⟨⟩
          exact here ⟨rfl, rfl⟩
        simp [written?, here, ih, apart]

theorem slot?_note_of_ne (apart : other ≠ o) : (r.note o deed).slot? other = r.slot? other := by
  funext name
  cases deed <;> simp [slot?, note, written?, apart, apart.symm]

theorem slot?_note_declared (fresh : written? o name r.log = none) :
    (r.note o (.declared name)).slot? o asked =
      if asked = name then some none else r.slot? o asked := by
  by_cases same : asked = name
  · simp [slot?, note, written?, same, fresh]
  · simp [slot?, note, written?, same]

theorem slot?_note_wrote :
    (r.note o (.wrote name x)).slot? o asked =
      if asked = name then (r.slot? o asked).map fun _ => some x else r.slot? o asked := by
  by_cases same : asked = name
  · subst same
    by_cases declared : (o, .declared asked) ∈ r.log <;> simp [slot?, note, written?, declared]
  · simp [slot?, note, written?, same, Ne.symm same]

def inUse (r : Objects) : List Nat := r.global :: (r.temporary.toList ++ r.locals)

/-- No object has two roles, and nothing is known of an object before it is made, or of a name
before it is declared. -/
structure Sound (r : Objects) : Prop where
  distinct : r.inUse.Nodup
  made : ∀ o ∈ r.inUse, o < r.made
  known : ∀ entry ∈ r.log, entry.1 < r.made
  declared : ∀ o name x, (o, .wrote name x) ∈ r.log → (o, .declared name) ∈ r.log

theorem object?_mem {scope : Scope} (found : r.object? scope = some o) : o ∈ r.inUse := by
  rw [inUse, List.mem_cons, List.mem_append, Option.mem_toList]
  cases scope with
  | global => exact .inl (Option.some.inj found).symm
  | innermost => exact .inr (.inr (List.mem_of_head? found))
  | temporary => exact .inr (.inl found)

theorem Sound.note (sound : r.Sound) (used : o ∈ r.inUse)
    (proper : ∀ name x, deed = .wrote name x → (o, .declared name) ∈ r.log) :
    (r.note o deed).Sound where
  distinct := sound.distinct
  made := sound.made
  known := List.forall_mem_cons.2 ⟨sound.made o used, sound.known⟩
  declared object name x entry := by
    rcases List.mem_cons.1 entry with here | earlier
    · obtain ⟨rfl, same⟩ := Prod.mk.inj here
      exact List.mem_cons_of_mem _ (proper name x same.symm)
    · exact List.mem_cons_of_mem _ (sound.declared object name x earlier)

theorem Sound.slot?_made (sound : r.Sound) : r.slot? r.made = fun _ => none := by
  funext name
  refine if_neg fun entry => ?_
  exact absurd (sound.known _ entry) (Nat.lt_irrefl _)

theorem Sound.move {locals : List Nat} {temporary : Option Nat} (sound : r.Sound)
    (kept : ({ r with locals, temporary } : Objects).inUse.Sublist r.inUse) :
    ({ r with locals, temporary } : Objects).Sound where
  distinct := sound.distinct.sublist kept
  made o there := sound.made o (kept.subset there)
  known := sound.known
  declared := sound.declared

theorem Sound.create (sound : r.Sound) : (FrameStore.create r).Sound where
  distinct := by
    have others : (r.global :: r.locals).Sublist r.inUse :=
      .cons_cons _ (List.sublist_append_right _ _)
    have fresh : r.made ∉ r.global :: r.locals := fun there =>
      Nat.lt_irrefl _ (sound.made _ (others.subset there))
    exact (List.Perm.swap _ _ _).nodup (List.nodup_cons.2 ⟨fresh, sound.distinct.sublist others⟩)
  made o there := by
    rcases List.mem_cons.1 there with rfl | there
    · exact Nat.lt_succ_of_lt (sound.made _ List.mem_cons_self)
    · rcases List.mem_cons.1 there with rfl | there
      · exact Nat.lt_succ_self _
      · exact Nat.lt_succ_of_lt
          (sound.made o (List.mem_cons_of_mem _ (List.mem_append_right _ there)))
  known entry earlier := Nat.lt_succ_of_lt (sound.known entry earlier)
  declared := sound.declared

theorem declared_of_slot? {held : Option Value} (slot : r.slot? o name = some held) :
    (o, .declared name) ∈ r.log := by
  rw [slot?] at slot
  split at slot
  · assumption
  · cases slot

theorem Sound.written?_of_slot? (sound : r.Sound) (slot : r.slot? o name = none) :
    written? o name r.log = none := by
  refine written?_eq_none.2 fun x entry => ?_
  rw [slot?, if_pos (sound.declared o name x entry)] at slot
  cases slot

end Objects

/-! ## The simulation -/

open FrameStore

/-- The frames show what is known of the objects in the same roles. -/
structure Mirrors (fs : Frames) (r : Objects) : Prop where
  sound : r.Sound
  global : fs.global.find? = r.slot? r.global
  locals : fs.locals.map Frame.find? = r.locals.map r.slot?
  temporary : fs.temporary.map Frame.find? = r.temporary.map r.slot?

inductive Alike : Except FrameError Frames → Except FrameError Objects → Prop
  | ok {fs : Frames} {r : Objects} : Mirrors fs r → Alike (.ok fs) (.ok r)
  | error {e : FrameError} : Alike (.error e) (.error e)

namespace Mirrors

variable {fs : Frames} {r : Objects} {v : Variable} {x : Value}

theorem initial : Mirrors .initial .initial where
  sound := {
    distinct := by decide
    made := by decide
    known := nofun
    declared := nofun }
  global := rfl
  locals := rfl
  temporary := rfl

theorem lookup (mirrors : Mirrors fs r) (scope : Scope) :
    (fs.frame? scope = none ∧ r.object? scope = none) ∨
    ∃ f o, fs.frame? scope = some f ∧ r.object? scope = some o ∧ f.find? = r.slot? o := by
  have shown : (fs.frame? scope).map Frame.find? = (r.object? scope).map r.slot? := by
    cases scope with
    | global => exact congrArg some mirrors.global
    | innermost =>
      have heads := congrArg List.head? mirrors.locals
      rwa [List.head?_map, List.head?_map] at heads
    | temporary => exact mirrors.temporary
  cases there : fs.frame? scope with
  | none =>
    rw [there, Option.map_none, eq_comm, Option.map_eq_none_iff] at shown
    exact .inl ⟨rfl, shown⟩
  | some f =>
    rw [there, Option.map_some, eq_comm, Option.map_eq_some_iff] at shown
    obtain ⟨o, found, same⟩ := shown
    exact .inr ⟨f, o, rfl, found, same.symm⟩

theorem note {scope : Scope} {o : Nat} {deed : Deed} {change : Frame → Frame}
    (mirrors : Mirrors fs r) (found : r.object? scope = some o) (sound : (r.note o deed).Sound)
    (changed : ∀ f, f.find? = r.slot? o → (change f).find? = (r.note o deed).slot? o) :
    Mirrors (fs.modify scope change) (r.note o deed) := by
  -- No object has two roles, so the frames in all other roles show what they did.
  have alone (other : Nat) (apart : other ≠ o) : r.slot? other = (r.note o deed).slot? other :=
    (Objects.slot?_note_of_ne apart).symm
  have listed {others : List Nat} (elsewhere : ∀ other ∈ others, other ≠ o) :
      others.map r.slot? = others.map (r.note o deed).slot? :=
    List.map_congr_left fun other there => alone other (elsewhere other there)
  have held {role : Option Nat} (elsewhere : ∀ other ∈ role, other ≠ o) :
      role.map r.slot? = role.map (r.note o deed).slot? :=
    Option.map_congr fun other there => alone other (elsewhere other there)
  obtain ⟨global, locals, temporary⟩ := fs
  obtain ⟨top, stack, loose, made, log⟩ := r
  obtain ⟨outside, distinct⟩ := List.nodup_cons.1 sound.distinct
  obtain ⟨-, piled, separate⟩ := List.nodup_append.1 distinct
  cases scope with
  | global =>
    cases found
    refine ⟨sound, changed _ mirrors.global, mirrors.locals.trans (listed ?_),
      mirrors.temporary.trans (held ?_)⟩
    · rintro _ there rfl
      exact outside (List.mem_append_right _ there)
    · rintro _ there rfl
      exact outside (List.mem_append_left _ (Option.mem_toList.2 there))
  | innermost =>
    cases stack with
    | nil => cases found
    | cons _ outer =>
      cases found
      cases locals with
      | nil => cases mirrors.locals
      | cons f rest =>
        obtain ⟨first, others⟩ := List.cons.inj mirrors.locals
        obtain ⟨below, -⟩ := List.nodup_cons.1 piled
        refine ⟨sound, mirrors.global.trans (alone top ?_),
          List.cons_eq_cons.2 ⟨changed f first, others.trans (listed ?_)⟩,
          mirrors.temporary.trans (held ?_)⟩
        · intro same
          exact outside (same ▸ List.mem_append_right _ List.mem_cons_self)
        · rintro _ there rfl
          exact below there
        · rintro _ there rfl
          exact separate _ (Option.mem_toList.2 there) _ List.mem_cons_self rfl
  | temporary =>
    cases found
    cases temporary with
    | none => cases mirrors.temporary
    | some f =>
      refine ⟨sound, mirrors.global.trans (alone top ?_), mirrors.locals.trans (listed ?_),
        congrArg some (changed f (Option.some.inj mirrors.temporary))⟩
      · intro same
        exact outside (same ▸ List.mem_cons_self)
      · rintro _ there rfl
        exact separate _ List.mem_cons_self _ there rfl

theorem create (mirrors : Mirrors fs r) :
    Mirrors (FrameStore.create fs) (FrameStore.create r) where
  sound := mirrors.sound.create
  global := mirrors.global
  locals := mirrors.locals
  temporary := congrArg some mirrors.sound.slot?_made.symm

theorem push (mirrors : Mirrors fs r) : Alike (FrameStore.push fs) (FrameStore.push r) := by
  obtain ⟨global, locals, temporary⟩ := fs
  obtain ⟨top, stack, loose, made, log⟩ := r
  cases loose with
  | none =>
    obtain rfl := Option.map_eq_none_iff.1 mirrors.temporary
    exact .error
  | some o =>
    obtain ⟨f, rfl, same⟩ := Option.map_eq_some_iff.1 mirrors.temporary
    exact .ok {
      sound := mirrors.sound.move (.refl _)
      global := mirrors.global
      locals := List.cons_eq_cons.2 ⟨same, mirrors.locals⟩
      temporary := rfl }

theorem pop (mirrors : Mirrors fs r) : Alike (FrameStore.pop fs) (FrameStore.pop r) := by
  obtain ⟨global, locals, temporary⟩ := fs
  obtain ⟨top, stack, loose, made, log⟩ := r
  cases stack with
  | nil =>
    obtain rfl := List.map_eq_nil_iff.1 mirrors.locals
    exact .error
  | cons o outer =>
    obtain ⟨f, rest, rfl, same, others⟩ := List.map_eq_cons_iff.1 mirrors.locals
    exact .ok {
      sound := mirrors.sound.move (.cons_cons _ (List.sublist_append_right _ _))
      global := mirrors.global
      locals := others
      temporary := congrArg some same }

theorem slot (mirrors : Mirrors fs r) (v : Variable) : fs.slot v = r.slot v := by
  rw [Frames.slot, Frames.frame, Objects.slot, Objects.object]
  rcases mirrors.lookup v.scope with ⟨absent, none⟩ | ⟨f, o, present, found, same⟩
  · rw [absent, none]
    rfl
  · cases held : r.slot? o v.name <;> simp [present, found, bind, Except.bind, same, held]

theorem read (mirrors : Mirrors fs r) (v : Variable) :
    FrameStore.read fs v = FrameStore.read r v := by
  have same := mirrors.slot v
  rcases held : r.slot v with e | _ | x <;>
    simp [FrameStore.read, Frames.read, same, held, bind, Except.bind]

theorem declare (mirrors : Mirrors fs r) (v : Variable) :
    Alike (FrameStore.declare fs v) (FrameStore.declare r v) := by
  simp only [FrameStore.declare, Frames.declare, Frames.frame, Objects.object]
  rcases mirrors.lookup v.scope with ⟨absent, none⟩ | ⟨f, o, present, found, same⟩
  · rw [absent, none]
    exact .error
  · simp only [present, found, bind, Except.bind, same]
    cases slot : r.slot? o v.name with
    | some held => exact .error
    | none =>
      have unwritten := mirrors.sound.written?_of_slot? slot
      refine .ok (mirrors.note found (mirrors.sound.note (Objects.object?_mem found) ?_) ?_)
      · rintro _ _ ⟨⟩
      · intro g shown
        funext asked
        rw [Objects.slot?_note_declared unwritten, ← shown, Frame.find?_declare]
        rw [shown, slot]

theorem write (mirrors : Mirrors fs r) (v : Variable) (x : Value) :
    Alike (FrameStore.write fs v x) (FrameStore.write r v x) := by
  simp only [FrameStore.write, Frames.write, Frames.frame, Objects.object]
  rcases mirrors.lookup v.scope with ⟨absent, none⟩ | ⟨f, o, present, found, same⟩
  · rw [absent, none]
    exact .error
  · simp only [present, found, bind, Except.bind, same]
    cases slot : r.slot? o v.name with
    | none => exact .error
    | some held =>
      refine .ok (mirrors.note found (mirrors.sound.note (Objects.object?_mem found) ?_) ?_)
      · rintro _ _ ⟨⟩
        exact Objects.declared_of_slot? slot
      · intro g shown
        funext asked
        rw [Objects.slot?_note_wrote, ← shown, Frame.find?_assign]

end Mirrors

theorem Alike.commit {fs : Frames} {r : Objects} {left : Except FrameError Frames}
    {right : Except FrameError Objects} (mirrors : Mirrors fs r) (alike : Alike left right) :
    (FrameStore.commit fs left).2 = (FrameStore.commit r right).2 ∧
      Mirrors (FrameStore.commit fs left).1 (FrameStore.commit r right).1 := by
  cases alike with
  | ok after => exact ⟨rfl, after⟩
  | error => exact ⟨rfl, mirrors⟩

namespace Mirrors

variable {fs : Frames} {r : Objects}

theorem perform (mirrors : Mirrors fs r) (op : FrameOp) :
    (FrameStore.perform fs op).2 = (FrameStore.perform r op).2 ∧
      Mirrors (FrameStore.perform fs op).1 (FrameStore.perform r op).1 := by
  cases op with
  | create => exact ⟨rfl, mirrors.create⟩
  | push => exact mirrors.push.commit mirrors
  | pop => exact mirrors.pop.commit mirrors
  | declare v => exact (mirrors.declare v).commit mirrors
  | write v x => exact (mirrors.write v x).commit mirrors
  | read v => exact ⟨congrArg (Except.map Reply.value) (mirrors.read v), mirrors⟩
  | slot v => exact ⟨congrArg (Except.map Reply.slot) (mirrors.slot v), mirrors⟩

theorem performAll (mirrors : Mirrors fs r) (ops : List FrameOp) :
    (FrameStore.performAll fs ops).2 = (FrameStore.performAll r ops).2 := by
  induction ops generalizing fs r with
  | nil => rfl
  | cons op ops ih =>
    obtain ⟨reply, next⟩ := mirrors.perform op
    exact List.cons_eq_cons.2 ⟨reply, ih next⟩

end Mirrors

/-! ## Outer frames -/

namespace Frames

variable {fs pushed back : Frames} {f : Frame} {outer : List Frame}

theorem suffix_modify (stack : fs.locals = f :: outer) {scope : Scope} {change : Frame → Frame} :
    outer <:+ (fs.modify scope change).locals := by
  cases scope with
  | global | temporary => exact stack ▸ List.suffix_cons _ _
  | innermost =>
    rw [modify, stack, List.modifyHead_cons]
    exact List.suffix_cons _ _

theorem suffix_commit {outcome : Except FrameError Frames} (stack : fs.locals = f :: outer)
    (ok : ∀ frames, outcome = .ok frames → outer <:+ frames.locals) :
    outer <:+ (commit fs outcome).1.locals := by
  cases outcome with
  | ok frames => exact ok frames rfl
  | error => exact stack ▸ List.suffix_cons _ _

theorem suffix_perform (stack : fs.locals = f :: outer) (op : FrameOp) :
    outer <:+ (perform fs op).1.locals := by
  have below : outer <:+ fs.locals := stack ▸ List.suffix_cons _ _
  cases op with
  | create | read | slot => exact below
  | push =>
    refine suffix_commit stack fun frames pushed => ?_
    obtain ⟨g, -, rfl⟩ := push_eq_ok.1 pushed
    exact below.trans (List.suffix_cons _ _)
  | pop =>
    refine suffix_commit stack fun frames popped => ?_
    obtain ⟨g, rest, whole, rfl⟩ := pop_eq_ok.1 popped
    obtain ⟨-, rfl⟩ := List.cons.inj (stack.symm.trans whole)
    exact List.suffix_rfl
  | declare v =>
    refine suffix_commit stack fun frames declared => ?_
    obtain ⟨g, -, -, rfl⟩ := declare_eq_ok.1 declared
    exact suffix_modify stack
  | write v x =>
    refine suffix_commit stack fun frames written => ?_
    obtain ⟨g, -, -, rfl⟩ := write_eq_ok.1 written
    exact suffix_modify stack

theorem suffix_performAll {ops : List FrameOp} (below : outer <:+ fs.locals)
    (deep : ∀ early, early <+: ops → outer.length < (performAll fs early).1.locals.length) :
    outer <:+ (performAll fs ops).1.locals := by
  induction ops generalizing fs with
  | nil => exact below
  | cons op ops ih =>
    -- There is a frame above the outer ones, and it alone can go or change in one operation.
    have inside : outer.length < fs.locals.length := deep [] (List.nil_prefix)
    obtain ⟨f, rest, stack⟩ := List.exists_cons_of_length_pos (Nat.zero_lt_of_lt inside)
    have under : outer <:+ rest := by
      rw [stack, List.suffix_cons_iff] at below
      refine below.resolve_left fun whole => ?_
      rw [stack, whole] at inside
      exact Nat.lt_irrefl _ inside
    refine ih (under.trans (suffix_perform stack op)) fun early start => ?_
    exact deep (op :: early) (List.cons_prefix_cons.2 ⟨rfl, start⟩)

/-- Any sequence of operations is answered as it is by objects. No operation changes the local
frames below the innermost one, so a frame that is pushed, used and popped leaves behind the local
frames that it found. -/
theorem refine_objects (ops : List FrameOp) :
    (performAll initial ops).2 = (performAll Objects.initial ops).2 ∧
    (∀ (fs : Frames) f outer op, fs.locals = f :: outer → outer <:+ (perform fs op).1.locals) ∧
    ∀ fs pushed back : Frames, fs.push = .ok pushed →
      (∀ early, early <+: ops → fs.locals.length < (performAll pushed early).1.locals.length) →
      (performAll pushed ops).1.pop = .ok back → back.locals.length = fs.locals.length →
      back.locals = fs.locals := by
  refine ⟨Mirrors.initial.performAll ops, fun _ _ _ op stack => suffix_perform stack op, ?_⟩
  intro fs pushed back push deep pop depth
  obtain ⟨f, -, rfl⟩ := push_eq_ok.1 push
  have below := suffix_performAll (List.suffix_cons f fs.locals) deep
  obtain ⟨g, rest, whole, rfl⟩ := pop_eq_ok.1 pop
  rw [whole, List.suffix_cons_iff] at below
  rcases below with whole | under
  · have lengths := congrArg List.length whole
    rw [List.length_cons] at lengths
    exact absurd depth (by simp only; omega)
  · exact (under.eq_of_length depth.symm).symm

theorem refine_objects_nested :
    ∃ fs pushed back : Frames,
      fs = (performAll initial [.create, .declare ⟨.temporary, "x"⟩, .push, .create]).1 ∧
      fs.push = .ok pushed ∧
      (performAll pushed [.declare ⟨.innermost, "x"⟩, .write ⟨.innermost, "x"⟩ .nil]).1.pop =
        .ok back ∧
      back.temporary = some ⟨[("x", some .nil)]⟩ ∧ back.locals = fs.locals ∧
      fs.locals = [⟨[("x", none)]⟩] := by
  let ops : List FrameOp := [.declare ⟨.innermost, "x"⟩, .write ⟨.innermost, "x"⟩ .nil]
  let fs := (performAll initial [.create, .declare ⟨.temporary, "x"⟩, .push, .create]).1
  let pushed : Frames := ⟨.empty, .empty :: fs.locals, none⟩
  have deep (early : List FrameOp) (start : early <+: ops) :
      fs.locals.length < (performAll pushed early).1.locals.length := by
    simp only [ops, List.prefix_cons_iff, List.prefix_nil] at start
    rcases start with rfl | ⟨_, rfl, rfl | ⟨_, rfl, rfl⟩⟩ <;> decide
  exact ⟨fs, pushed, _, rfl, rfl, rfl, rfl,
    (refine_objects ops).2.2 fs pushed _ rfl deep rfl rfl, rfl⟩

end Frames

end IppCode
