import IppCode.Proofs.Frames.Count
import IppCode.Proofs.Frames.Identity

/-!
# Conservation of variables

Every operation is booked: a declaration adds one variable, and a temporary frame that is replaced
takes its variables with it (`liveCount_perform`). A frame is replaced exactly when an object loses
its role (`Mirrors.losesRole_iff`). So what a sequence of operations declared is either live or was
discarded (`variables_conserved`).
-/

namespace IppCode

open FrameStore

def FrameOp.declares : FrameOp → Except FrameError Reply → Bool
  | .declare _, .ok _ => true
  | _, _ => false

def declarationCount (ops : List FrameOp) (replies : List (Except FrameError Reply)) : Nat :=
  (ops.zip replies).countP fun asked => asked.1.declares asked.2

namespace Frames

variable {fs frames : Frames} {v : Variable} {x : Value} {op : FrameOp}

def totalSize : List Frame → Nat
  | [] => 0
  | f :: others => f.size + totalSize others

/-- The temporary frame, if the operation puts another one in its place. -/
def discarded? (fs : Frames) : FrameOp → Option Frame
  | .create => fs.temporary
  | .pop => if fs.pop.isOk then fs.temporary else none
  | _ => none

def discarded (fs : Frames) : List FrameOp → List Frame
  | [] => []
  | op :: ops => (fs.discarded? op).toList ++ (perform fs op).1.discarded ops

theorem totalSize_append (first second : List Frame) :
    totalSize (first ++ second) = totalSize first + totalSize second := by
  induction first with
  | nil => exact (Nat.zero_add _).symm
  | cons f others ih => rw [List.cons_append, totalSize, totalSize, ih, Nat.add_assoc]

theorem liveCount_eq :
    fs.liveCount = totalSize fs.locals + (fs.global.size + totalSize fs.temporary.toList) := by
  have summed (locals : List Frame) (n : Nat) :
      locals.foldr (fun f n => f.size + n) n = totalSize locals + n := by
    induction locals with
    | nil => exact (Nat.zero_add n).symm
    | cons f outer ih => rw [List.foldr_cons, ih, totalSize, Nat.add_assoc]
  rw [liveCount, summed]
  cases fs.temporary <;> rfl

theorem size_declare (f : Frame) (name : String) : (f.declare name).size = f.size + 1 :=
  Frame.perm_insertSlot.length_eq

theorem size_assign (f : Frame) (name : String) (x : Value) : (f.assign name x).size = f.size :=
  List.length_map _

theorem liveCount_modify {scope : Scope} {f : Frame} {change : Frame → Frame} {n : Nat}
    (here : fs.frame? scope = some f) (gained : (change f).size = f.size + n) :
    (fs.modify scope change).liveCount = fs.liveCount + n := by
  obtain ⟨global, locals, temporary⟩ := fs
  cases scope with
  | global =>
    obtain rfl := Option.some.inj here
    simp only [modify, liveCount_eq, gained]
    omega
  | innermost =>
    obtain ⟨outer, rfl⟩ := List.head?_eq_some_iff.1 here
    simp only [modify, liveCount_eq, List.modifyHead_cons, totalSize, gained]
    omega
  | temporary =>
    obtain rfl : temporary = some f := here
    simp only [modify, liveCount_eq, Option.map_some, Option.toList_some, totalSize, gained]
    omega

theorem liveCount_create :
    fs.create.liveCount + totalSize fs.temporary.toList = fs.liveCount := by
  have empty : Frame.empty.size = 0 := rfl
  simp only [create, liveCount_eq, Option.toList_some, totalSize, empty]
  omega

theorem liveCount_push (pushed : fs.push = .ok frames) : frames.liveCount = fs.liveCount := by
  obtain ⟨f, staged, rfl⟩ := push_eq_ok.1 pushed
  simp only [liveCount_eq, staged, Option.toList_some, Option.toList_none, totalSize]
  omega

theorem liveCount_pop (popped : fs.pop = .ok frames) :
    frames.liveCount + totalSize fs.temporary.toList = fs.liveCount := by
  obtain ⟨f, outer, stack, rfl⟩ := pop_eq_ok.1 popped
  simp only [liveCount_eq, stack, Option.toList_some, totalSize]
  omega

theorem liveCount_declare (declared : fs.declare v = .ok frames) :
    frames.liveCount = fs.liveCount + 1 := by
  obtain ⟨f, here, -, rfl⟩ := declare_eq_ok.1 declared
  exact liveCount_modify (at?_place v.scope ▸ here) (size_declare f v.name)

theorem liveCount_write (written : fs.write v x = .ok frames) :
    frames.liveCount = fs.liveCount := by
  obtain ⟨f, here, -, rfl⟩ := write_eq_ok.1 written
  exact liveCount_modify (n := 0) (at?_place v.scope ▸ here) (size_assign f v.name x)

theorem perform_of_error {e : FrameError} (failed : (perform fs op).2 = .error e) :
    (perform fs op).1 = fs := by
  have kept {outcome : Except FrameError Frames} (failed : (commit fs outcome).2 = .error e) :
      (commit fs outcome).1 = fs := by
    cases outcome with
    | ok after => cases failed
    | error => rfl
  cases op with
  | create => cases failed
  | push | pop | declare | write => exact kept failed
  | read | slot => rfl

theorem liveCount_perform (fs : Frames) (op : FrameOp) :
    (perform fs op).1.liveCount + totalSize (fs.discarded? op).toList =
      fs.liveCount + if op.declares (perform fs op).2 then 1 else 0 := by
  cases op with
  | create => exact liveCount_create
  | push =>
    have committed : perform fs .push = commit fs fs.push := rfl
    rw [committed]
    cases pushed : fs.push with
    | ok after => exact liveCount_push pushed
    | error => rfl
  | pop =>
    have committed : perform fs .pop = commit fs fs.pop := rfl
    rw [committed, discarded?]
    cases popped : fs.pop with
    | ok after => exact liveCount_pop popped
    | error => rfl
  | declare v =>
    have committed : perform fs (.declare v) = commit fs (fs.declare v) := rfl
    rw [committed]
    cases declared : fs.declare v with
    | ok after => exact liveCount_declare declared
    | error => rfl
  | write v x =>
    have committed : perform fs (.write v x) = commit fs (fs.write v x) := rfl
    rw [committed]
    cases written : fs.write v x with
    | ok after => exact liveCount_write written
    | error => rfl
  | read | slot => rfl

theorem liveCount_performAll (fs : Frames) (ops : List FrameOp) :
    (performAll fs ops).1.liveCount + totalSize (fs.discarded ops) =
      fs.liveCount + declarationCount ops (performAll fs ops).2 := by
  induction ops generalizing fs with
  | nil => rfl
  | cons op ops ih =>
    have step := liveCount_perform fs op
    have later := ih (perform fs op).1
    have counted : declarationCount (op :: ops) (performAll fs (op :: ops)).2 =
        declarationCount ops (performAll (perform fs op).1 ops).2 +
          if op.declares (perform fs op).2 then 1 else 0 := List.countP_cons
    have last : (performAll fs (op :: ops)).1 = (performAll (perform fs op).1 ops).1 := rfl
    rw [last, discarded, totalSize_append, counted]
    omega

theorem pop_of_push (pushed : fs.push = .ok frames) : frames.pop = .ok fs := by
  obtain ⟨f, staged, rfl⟩ := push_eq_ok.1 pushed
  exact pop_eq_ok.2 ⟨f, fs.locals, rfl, by rw [← staged]⟩

end Frames

namespace Objects

variable {r after : Objects} {o : Nat} {op : FrameOp} {v : Variable} {x : Value}

/-- The object has a role before the operation and none after it. -/
def LosesRole (r : Objects) (op : FrameOp) (o : Nat) : Prop :=
  o ∈ r.inUse ∧ o ∉ (perform r op).1.inUse

theorem not_losesRole (kept : r.inUse ⊆ (perform r op).1.inUse) : ¬ r.LosesRole op o :=
  fun loses => loses.2 (kept loses.1)

theorem subset_declare (declared : FrameStore.declare r v = .ok after) :
    r.inUse ⊆ after.inUse := by
  simp only [FrameStore.declare, bind, Except.bind] at declared
  split at declared
  · cases declared
  · split at declared
    · cases declared
    · cases declared
      exact List.Subset.refl _

theorem subset_write (written : FrameStore.write r v x = .ok after) :
    r.inUse ⊆ after.inUse := by
  simp only [FrameStore.write, bind, Except.bind] at written
  split at written
  · cases written
  · split at written
    · cases written
      exact List.Subset.refl _
    · cases written

theorem subset_commit {outcome : Except FrameError Objects}
    (ok : ∀ after, outcome = .ok after → r.inUse ⊆ after.inUse) :
    r.inUse ⊆ (commit r outcome).1.inUse := by
  cases outcome with
  | ok after => exact ok after rfl
  | error => exact List.Subset.refl _

theorem subset_push (pushed : FrameStore.push r = .ok after) : r.inUse ⊆ after.inUse := by
  obtain ⟨global, locals, temporary, made, log⟩ := r
  cases temporary with
  | none => cases pushed
  | some o =>
    cases pushed
    exact List.Subset.refl _

theorem Sound.losesRole_iff (sound : r.Sound)
    (replaced : ∀ o ∈ r.inUse, o ∈ (perform r op).1.inUse ↔ o ∈ r.global :: r.locals) :
    r.LosesRole op o ↔ r.temporary = some o := by
  have others : ∀ o ∈ r.inUse, o ∉ r.global :: r.locals ↔ r.temporary = some o := by
    obtain ⟨outside, distinct⟩ := List.nodup_cons.1 sound.distinct
    obtain ⟨-, -, separate⟩ := List.nodup_append.1 distinct
    intro o used
    rw [inUse, List.mem_cons, List.mem_append, Option.mem_toList] at used
    rw [List.mem_cons, not_or]
    constructor
    · rintro ⟨apart, absent⟩
      exact (used.resolve_left apart).resolve_right absent
    · intro loose
      have listed : o ∈ r.temporary.toList := Option.mem_toList.2 loose
      refine ⟨?_, fun there => separate o listed o there rfl⟩
      rintro rfl
      exact outside (List.mem_append_left _ listed)
  constructor
  · rintro ⟨used, gone⟩
    exact (others o used).1 (mt (replaced o used).2 gone)
  · intro loose
    have held : r.object? .temporary = some o := loose
    have used : o ∈ r.inUse := object?_mem held
    exact ⟨used, mt (replaced o used).1 ((others o used).2 loose)⟩

theorem Sound.losesRole_create (sound : r.Sound) :
    r.LosesRole .create o ↔ r.temporary = some o := by
  refine sound.losesRole_iff fun o used => ?_
  have made : o ≠ r.made := Nat.ne_of_lt (sound.made o used)
  change o ∈ r.global :: r.made :: r.locals ↔ _
  simp [made]

theorem Sound.losesRole_pop (sound : r.Sound) :
    r.LosesRole .pop o ↔ r.locals ≠ [] ∧ r.temporary = some o := by
  obtain ⟨global, locals, temporary, made, log⟩ := r
  cases locals with
  | nil => simpa using not_losesRole (List.Subset.refl _)
  | cons top outer =>
    rw [sound.losesRole_iff fun o _ => Iff.rfl]
    simp

end Objects

namespace Mirrors

variable {fs : Frames} {r : Objects} {op : FrameOp} {o : Nat}

theorem performAll_fst (mirrors : Mirrors fs r) (ops : List FrameOp) :
    Mirrors (FrameStore.performAll fs ops).1 (FrameStore.performAll r ops).1 := by
  induction ops generalizing fs r with
  | nil => exact mirrors
  | cons op ops ih => exact ih (mirrors.perform op).2

theorem isSome_temporary (mirrors : Mirrors fs r) :
    fs.temporary.isSome = r.temporary.isSome := by
  simpa using congrArg Option.isSome mirrors.temporary

theorem isOk_pop (mirrors : Mirrors fs r) : fs.pop.isOk = true ↔ r.locals ≠ [] := by
  have depth : fs.locals.length = r.locals.length := by
    simpa using congrArg List.length mirrors.locals
  rw [← List.length_pos_iff, ← depth, List.length_pos_iff, Frames.pop]
  cases fs.locals <;> simp [Except.isOk, Except.toBool]

theorem losesRole_iff (mirrors : Mirrors fs r) :
    r.LosesRole op o ↔ r.temporary = some o ∧ (fs.discarded? op).isSome := by
  have temporary (loose : r.temporary = some o) : fs.temporary.isSome = true := by
    rw [mirrors.isSome_temporary, loose, Option.isSome_some]
  have never {op : FrameOp} (kept : r.inUse ⊆ (FrameStore.perform r op).1.inUse)
      (none : fs.discarded? op = none) :
      r.LosesRole op o ↔ r.temporary = some o ∧ (fs.discarded? op).isSome := by
    simpa [none] using Objects.not_losesRole kept
  cases op with
  | create =>
    rw [mirrors.sound.losesRole_create]
    exact ⟨fun loose => ⟨loose, temporary loose⟩, And.left⟩
  | pop =>
    rw [mirrors.sound.losesRole_pop, ← mirrors.isOk_pop, Frames.discarded?]
    by_cases popped : fs.pop.isOk = true
    · simpa [popped] using temporary
    · simp [popped]
  | push => exact never (Objects.subset_commit fun _ => Objects.subset_push) rfl
  | declare v => exact never (Objects.subset_commit fun _ => Objects.subset_declare) rfl
  | write v x => exact never (Objects.subset_commit fun _ => Objects.subset_write) rfl
  | read | slot => exact never (List.Subset.refl _) rfl

end Mirrors

namespace Frames

/-- What was declared is live or was discarded, and what is discarded is the temporary object when
it loses its role. Other operations keep the count, those that fail keep everything, and a frame
that is pushed and popped is back where it was. -/
theorem variables_conserved (ops : List FrameOp) :
    (performAll initial ops).1.liveCount + totalSize (initial.discarded ops) =
      declarationCount ops (performAll initial ops).2 ∧
    (∀ op o, (performAll Objects.initial ops).1.LosesRole op o ↔
      (performAll Objects.initial ops).1.temporary = some o ∧
        ((performAll initial ops).1.discarded? op).isSome) ∧
    (∀ (fs : Frames) v x, (perform fs .push).1.liveCount = fs.liveCount ∧
      (perform fs (.write v x)).1.liveCount = fs.liveCount ∧
      (perform fs (.read v)).1 = fs ∧ (perform fs (.slot v)).1 = fs) ∧
    (∀ (fs : Frames) op e, (perform fs op).2 = .error e → (perform fs op).1 = fs) ∧
    ∀ fs pushed : Frames, fs.push = .ok pushed → pushed.pop = .ok fs := by
  have mirrors := Mirrors.initial.performAll_fst ops
  refine ⟨?_, fun op o => mirrors.losesRole_iff, fun fs v x => ⟨?_, ?_, rfl, rfl⟩,
    fun fs op e => perform_of_error, fun fs pushed => pop_of_push⟩
  · have booked := liveCount_performAll initial ops
    rwa [show initial.liveCount = 0 from rfl, Nat.zero_add] at booked
  · exact liveCount_perform fs .push
  · exact liveCount_perform fs (.write v x)

theorem variables_conserved_replaced :
    let ops : List FrameOp := [.create, .declare ⟨.temporary, "a"⟩, .push, .create,
      .declare ⟨.temporary, "b"⟩, .declare ⟨.temporary, "b"⟩, .pop]
    let last := (performAll initial ops).1
    ∃ pushed : Frames, last.push = .ok pushed ∧ pushed.pop = .ok last ∧
      initial.discarded ops = [⟨[("b", none)]⟩] ∧
      declarationCount ops (performAll initial ops).2 = 2 ∧ last.liveCount + 1 = 2 := by
  intro ops last
  have conserved := variables_conserved ops
  exact ⟨_, rfl, conserved.2.2.2.2 last _ rfl, rfl, rfl, conserved.1⟩

end Frames

end IppCode
