import Reshape.Proofs.Session.Coherence
import Reshape.Routine.Run

/-!
# Reachable sessions

`Session.Reachable` are the sessions that come of any use of pools, heaps, registries, routines and
programs, in any order. All of them are coherent (`Session.Reachable.coherent`).

Code, collection mappers and routines evolve a session however they end. For code this goes by its
structure, for any property that finding and running other routines keeps (`Session.Stable`), and
for routines by the depth of the run (`Routine.run_evolves`).
-/

set_option linter.unusedSectionVars false

namespace Reshape

/-! ## Runs -/

/-- The computation keeps the property, however it ends. -/
def RunM.Keeps {α : Type} (p : Session → Prop) (x : RunM α) : Prop :=
  ∀ s, p s → Ensures x s (fun _ => p) fun _ => p

/-- The same on machines. -/
def EvalM.Keeps {α : Type} (p : Session → Prop) (x : EvalM α) : Prop :=
  ∀ m : Machine, p m.session → Ensures x m (fun _ m' => p m'.session) fun _ m' => p m'.session

section

variable {α β : Type} {p : Session → Prop}

namespace RunM.Keeps

theorem pure (a : α) : RunM.Keeps p (Pure.pure a) :=
  fun _ h => h

theorem throw (stop : Stop) : RunM.Keeps p (MonadExcept.throw stop : RunM α) :=
  fun _ h => h

theorem bind {x : RunM α} {f : α → RunM β} (hx : RunM.Keeps p x)
    (hf : ∀ a, RunM.Keeps p (f a)) : RunM.Keeps p (x >>= f) :=
  fun s h => Ensures.bind ((hx s h).mono (fun a s' h' => hf a s' h') fun _ _ h' => h')

theorem get {f : Session → RunM β} (hf : ∀ s, RunM.Keeps p (f s)) : RunM.Keeps p (get >>= f) :=
  fun s h => hf s s h

theorem ite {c : Prop} [Decidable c] {x y : RunM α} (hx : RunM.Keeps p x)
    (hy : RunM.Keeps p y) : RunM.Keeps p (if c then x else y) := by
  split
  · exact hx
  · exact hy

end RunM.Keeps

namespace EvalM.Keeps

theorem pure (a : α) : EvalM.Keeps p (Pure.pure a) :=
  fun _ h => h

theorem throw (e : Exit) : EvalM.Keeps p (MonadExcept.throw e : EvalM α) :=
  fun _ h => h

theorem bind {x : EvalM α} {f : α → EvalM β} (hx : EvalM.Keeps p x)
    (hf : ∀ a, EvalM.Keeps p (f a)) : EvalM.Keeps p (x >>= f) :=
  fun m h => Ensures.bind ((hx m h).mono (fun a m' h' => hf a m' h') fun _ _ h' => h')

theorem ite {c : Prop} [Decidable c] {x y : EvalM α} (hx : EvalM.Keeps p x)
    (hy : EvalM.Keeps p y) : EvalM.Keeps p (if c then x else y) := by
  split
  · exact hx
  · exact hy

theorem run {x : RunM α} (hx : RunM.Keeps p x) : EvalM.Keeps p (EvalM.run x) := by
  intro m h
  have hx := hx m.session h
  unfold Ensures EvalM.run at *
  cases hrun : x m.session with
  | ok a s => rw [hrun] at hx; exact hx
  | error stop s => rw [hrun] at hx; exact hx

theorem heap : EvalM.Keeps p EvalM.heap :=
  fun _ h => h

theorem note (event : LocalEvent) : EvalM.Keeps p (EvalM.note event) :=
  fun _ h => h

theorem load (id : LocalId) : EvalM.Keeps p (EvalM.load id) :=
  fun _ h => h

theorem store (id : LocalId) (v : Value) : EvalM.Keeps p (EvalM.store id v) :=
  fun _ h => h

end EvalM.Keeps

/-- A property that does not depend on the heap and the record of calls, and that finding and
running other routines keeps. -/
structure Session.Stable (p : Session → Prop) (invoke : Invoke) (frame : Frame) : Prop where
  heap : ∀ s heap, p s → p { s with heap := heap }
  calls : ∀ s calls, p s → p { s with calls := calls }
  linked : ∀ link v d, RunM.Keeps p do
    let routine ← Session.resolve frame.linkage link
    invoke routine v d frame.state
  dynamic : ∀ source target v d, RunM.Keeps p do
    let routine ← Session.resolveDynamic frame.linkage source target
    invoke routine v d frame.state

namespace Session.Stable

variable {invoke : Invoke} {frame : Frame} (h : Session.Stable p invoke frame)

include h

theorem onHeap (f : Heap → α × Heap) : RunM.Keeps p (RunM.onHeap f) :=
  fun s hs => h.heap s _ hs

theorem onHeapExcept {ε : Type} (wrap : ε → ConversionError) (f : Heap → Except ε α × Heap) :
    RunM.Keeps p (RunM.onHeapExcept wrap f) := by
  intro s hs
  unfold Ensures RunM.onHeapExcept
  rcases f s.heap with ⟨_ | _, heap⟩ <;> exact h.heap s heap hs

theorem callConverter (c : Registered) (v state : Value) :
    RunM.Keeps p (Session.callConverter c v state) :=
  .bind (fun s hs => h.calls s _ hs) fun _ => h.onHeapExcept _ _

mutual

/-- By the expression : code keeps what its calls and allocations keep. -/
theorem eval : ∀ code : Code, EvalM.Keeps p (code.eval invoke frame)
  | .argument _ | .null => by
    simp only [Code.eval]
    exact .pure _
  | .readLocal _ => by
    simp only [Code.eval]
    exact .bind (.note _) fun _ => .load _
  | .declareLocal _ _ => by
    simp only [Code.eval]
    exact .bind (.note _) fun _ => .bind (.store _ _) fun _ => .pure _
  | .newInstance template => by
    simp only [Code.eval]
    exact .run (h.onHeap _)
  | .writeLocal _ value => by
    simp only [Code.eval]
    exact .bind (eval value) fun _ => .bind (.note _) fun _ => .bind (.store _ _) fun _ => .pure _
  | .box value => by
    simp only [Code.eval]
    exact .bind (eval value) fun _ => .run (h.onHeap _)
  | .unbox value => by
    simp only [Code.eval]
    exact .bind (eval value) fun _ => .pure _
  | .returns value => by
    simp only [Code.eval]
    exact .bind (eval value) fun _ => .throw _
  | .sequence children => by
    simp only [Code.eval]
    exact evalAll .null children
  | .invokeLinked link value destination => by
    simp only [Code.eval]
    refine .bind (eval value) fun v => .ite (.bind (.note _) fun _ => .pure _) ?_
    exact .bind (eval destination) fun d => .run (h.linked link v d)
  | .invokeDynamic target value destination => by
    simp only [Code.eval]
    refine .bind (eval value) fun v => .bind .heap fun heap => ?_
    split
    · exact .bind (.note _) fun _ => .pure _
    · exact .bind (eval destination) fun d => .run (h.dynamic _ _ v d)
  | .readMember object _ _ => by
    simp only [Code.eval]
    refine .bind (eval object) fun v => .bind .heap fun heap => ?_
    split
    · exact .pure _
    · exact .ite (.pure _) (.throw _)
  | .writeMember _ _ value => by
    simp only [Code.eval]
    refine .bind (eval value) fun v => .bind (.note _) fun _ => .bind (.load _) fun _ => ?_
    exact .bind (.run (h.onHeap _)) fun _ => .bind (.store _ _) fun _ => .pure _
  | .coalesce value fallback => by
    simp only [Code.eval]
    exact .bind (eval value) fun _ => .ite (eval fallback) (.pure _)
  | .ifNotNull test body => by
    simp only [Code.eval]
    exact .bind (eval test) fun _ => .ite (.pure _) (eval body)
  | .convert target value => by
    simp only [Code.eval]
    exact .bind (eval value) fun _ => .run (h.onHeapExcept _ _)
  | .custom converter value => by
    simp only [Code.eval]
    exact .bind (eval value) fun _ => .ite (.pure _) (.run (h.callConverter _ _ _))

theorem evalAll (last : Value) :
    ∀ codes : List Code, EvalM.Keeps p (Code.evalAll invoke frame last codes)
  | [] => by
    simp only [Code.evalAll]
    exact .pure _
  | code :: codes => by
    simp only [Code.evalAll]
    exact .bind (eval code) fun v => evalAll v codes

end

theorem runProgram (program : ReadyProgram) : RunM.Keeps p (program.run invoke frame) := by
  intro s hs
  have heval := h.eval program.code (program.start s) hs
  unfold Ensures ReadyProgram.run at *
  cases hrun : program.code.eval invoke frame (program.start s) with
  | ok v m => rw [hrun] at heval; exact heval
  | error e m =>
    rw [hrun] at heval
    cases e <;> exact heval

variable (mapper : CollectionMapper)

theorem mapElement (element : Value) : RunM.Keeps p (mapper.mapElement invoke frame element) := by
  unfold CollectionMapper.mapElement
  refine .ite (.pure _) ?_
  split
  · exact .pure _
  · rename_i link _
    have hmapped := (h.linked link element .null).bind fun mapped =>
      .pure (if mapper.inlineElements then mapped.unboxed else mapped)
    rwa [bind_assoc] at hmapped
  · rename_i target _
    refine .get fun s => ?_
    split
    · exact .pure _
    · rename_i shape _
      have hmapped := (h.dynamic shape (target.getD shape) element .null).bind fun mapped =>
        .pure (if mapper.inlineElements then mapped.unboxed else mapped)
      rwa [bind_assoc] at hmapped

theorem mapElements (elements : List Value) :
    RunM.Keeps p (mapper.mapElements invoke frame elements) := by
  unfold CollectionMapper.mapElements
  induction elements with
  | nil => exact .pure _
  | cons element elements ih =>
    rw [List.mapM_cons]
    exact .bind (h.mapElement mapper element) fun _ => .bind ih fun _ => .pure _

theorem appendElements (a : Address) (elements : List Value) :
    RunM.Keeps p (mapper.appendElements invoke frame a elements) := by
  unfold CollectionMapper.appendElements
  induction elements with
  | nil => exact .pure _
  | cons element elements ih =>
    refine .bind (.bind (h.mapElement mapper element) fun mapped => ?_) fun _ => ih
    exact fun s hs => h.heap s _ hs

/-- Code with other arguments is as good. -/
theorem withArguments (source destination : Value) :
    Session.Stable p invoke { frame with source := source, destination := destination } :=
  ⟨h.heap, h.calls, h.linked, h.dynamic⟩

theorem newContainer? : RunM.Keeps p (mapper.newContainer? invoke frame) := by
  unfold CollectionMapper.newContainer?
  split
  · exact .pure _
  · refine .bind ((h.withArguments .null .null).runProgram _) fun made => .get fun s => ?_
    split
    · exact .pure _
    · exact .pure _

theorem runMapper : RunM.Keeps p (mapper.run invoke frame) := by
  have hnew : RunM.Keeps p (do
      RunM.onHeap (Heap.alloc (.seq mapper.target (← mapper.mapElements invoke frame
        (← CollectionMapper.sourceElements frame.source)).toArray))) :=
    .bind (.get fun _ => .pure _) fun elements =>
      .bind (h.mapElements mapper elements) fun _ => h.onHeap _
  unfold CollectionMapper.run
  refine .ite (.pure _) ?_
  split
  · exact hnew
  · exact hnew
  · exact hnew
  · refine .bind (.get fun s => ?_) fun container? => ?_
    · split
      · exact .pure _
      · exact h.newContainer? mapper
    · split
      · exact .pure _
      · refine .bind (.get fun _ => .pure _) fun elements => ?_
        exact .bind (h.appendElements mapper _ elements) fun _ => .pure _

end Session.Stable

end

/-! ## Routines -/

section

variable {mappings : Mapping → Prop} {owner : Nat → Linkage} {s s₀ : Session} {invoke : Invoke}

/-- To run a routine that is known evolves a session, however the run ends. -/
def Invoke.Evolving (mappings : Mapping → Prop) (invoke : Invoke) : Prop :=
  ∀ (owner : Nat → Linkage) (s : Session) (r : Routine), s.Owned mappings owner → s.Knows r →
    ∀ source destination state,
      Ensures (invoke r source destination state) s (fun _ s' => s.Evolves mappings owner s')
        fun _ s' => s.Evolves mappings owner s'

/-- To find a routine and to run it. -/
theorem Session.Evolves.find_bind {owner₁ : Nat → Linkage} {linkage : Linkage}
    {source target : ShapeId} (hinvoke : invoke.Evolving mappings)
    (h : s₀.Evolves mappings owner s) (hagree : ∀ i < s₀.linkages, owner₁ i = owner i)
    {x : RunM Routine} (hx : Ensures x s (s.Finds mappings owner₁ linkage source target)
      fun _ s' => s.Evolves mappings owner₁ s' ∧ s'.heap = s.heap) (v d state : Value) :
    Ensures (x >>= fun routine => invoke routine v d state) s
      (fun _ s' => s₀.Evolves mappings owner s') fun _ s' => s₀.Evolves mappings owner s' := by
  refine Ensures.bind (hx.mono ?_ fun _ _ h' => h.trans hagree h'.1)
  intro r s' hfinds
  have hs' : s₀.Evolves mappings owner s' := h.trans hagree hfinds.evolves
  obtain ⟨owner₂, hagree', howned⟩ := hs'.owned
  refine (hinvoke owner₂ s' r howned hfinds.knows v d state).mono ?_ ?_
  · exact fun _ _ h' => hs'.trans hagree' h'
  · exact fun _ _ h' => hs'.trans hagree' h'

/-- Evolving from a session is kept by code with a linkage that the session owns. -/
theorem Session.Owned.stable (hinvoke : invoke.Evolving mappings) (h : s₀.Owned mappings owner)
    {frame : Frame} (hlt : frame.linkage.id.index < s₀.linkages)
    (howner : owner frame.linkage.id.index = frame.linkage) :
    Session.Stable (s₀.Evolves mappings owner) invoke frame where
  heap := fun _ heap hs => hs.withHeap heap
  calls := fun _ calls hs => hs.withCalls calls
  linked := by
    intro link v d s hs
    obtain ⟨owner₁, hagree, howned⟩ := hs.owned
    exact hs.find_bind hinvoke hagree (resolve_finds howned link
      (Nat.lt_of_lt_of_le hlt hs.linkages) ((hagree _ hlt).trans howner)) v d frame.state
  dynamic := by
    intro source target v d s hs
    obtain ⟨owner₁, hagree, howned⟩ := hs.owned
    exact hs.find_bind hinvoke hagree (resolveDynamic_finds howned source target
      (howner ▸ h.linkage _ hlt)) v d frame.state

/-- Runs evolve a session, whatever their depth. -/
theorem Routine.run_evolving (depth : Nat) : Invoke.Evolving mappings (Routine.run depth) := by
  induction depth with
  | zero => exact fun owner s r hs _ _ _ _ => .refl hs
  | succ depth ih =>
    intro owner s r hs hknows source destination state
    obtain ⟨i, registry, hi, hr⟩ := hknows
    obtain ⟨hlt, howner, -⟩ := hs.routine i registry hi r hr
    have hstable : Session.Stable (s.Evolves mappings owner) (Routine.run depth)
        ⟨source, destination, state, r.linkage⟩ := hs.stable ih hlt howner
    unfold Routine.run
    dsimp only
    split
    · exact hstable.runProgram _ s (.refl hs)
    · exact hstable.runMapper _ s (.refl hs)
    · exact .refl hs

end

/-! ## Sessions -/

namespace Session

/-- The sessions that come of any use of pools, heaps, registries, routines and programs, where all
routines and programs are compiled under one of the mappings. -/
inductive Reachable (mappings : Mapping → Prop) : Session → Prop
  | start : Reachable mappings {}
  /-- Values are made and changed. -/
  | withHeap {s} (h : Reachable mappings s) (heap : Heap) :
    Reachable mappings { s with heap := heap }
  /-- The record of calls is cleared. -/
  | withCalls {s} (h : Reachable mappings s) (calls : List ConverterCall) :
    Reachable mappings { s with calls := calls }
  | withPool {s} (h : Reachable mappings s) (operation : Pool.Operation) :
    Reachable mappings { s with pool := operation.apply s.pool }
  | newRegistry {s} (h : Reachable mappings s) : Reachable mappings s.newRegistry.2
  | shareRegistry {s} (h : Reachable mappings s) (id : RegistryId) :
    Reachable mappings (s.shareRegistry id)
  | dropRegistry {s} (h : Reachable mappings s) (id : RegistryId) :
    Reachable mappings (s.dropRegistry id)
  | hold {s} (h : Reachable mappings s) (r : Routine) : Reachable mappings (s.hold r)
  | release {s} (h : Reachable mappings s) (r : Routine) : Reachable mappings (s.release r)
  | getOrCompile {s} (h : Reachable mappings s) {registry : RegistryId} {mapping : Mapping}
    (halive : s.registryAlive registry = true) (hmapping : mappings mapping)
    (source target : ShapeId) :
    Reachable mappings (After (Session.getOrCompile registry source target mapping) s)
  /-- A link of a routine is followed. -/
  | resolve {s} (h : Reachable mappings s) {r : Routine} (hr : s.Knows r) (link : Link) :
    Reachable mappings (After (Session.resolve r.linkage link) s)
  | run {s} (h : Reachable mappings s) {r : Routine} (hr : s.Knows r) (depth : Nat)
    (source destination state : Value) :
    Reachable mappings (After (r.run depth source destination state) s)
  | runProgram {s} (h : Reachable mappings s) {mapping : Mapping} (hmapping : mappings mapping)
    (program : Program) (source destination state : Value) :
    Reachable mappings (After (Session.runProgram mapping program source destination state) s)

variable {mappings : Mapping → Prop} {owner : Nat → Linkage} {s : Session}

theorem Owned.withPool {pool : Pool} (hpool : s.pool.GrowsTo pool) (h : s.Owned mappings owner) :
    Owned mappings owner { s with pool := pool } := by
  refine ⟨h.pool.trans hpool, h.linkage, fun i registry hi r hr => ?_, h.resolution⟩
  obtain ⟨hlt, howner, hregistry, hmade⟩ := h.routine i registry hi r hr
  exact ⟨hlt, howner, hregistry, hmade.mapping, Mapping.body_growsTo hpool hmade.body⟩

theorem Owned.newRegistry (h : s.Owned mappings owner) : s.newRegistry.2.Owned mappings owner := by
  have hknows {r : Routine} (hr : s.Knows r) : s.newRegistry.2.Knows r := by
    obtain ⟨i, registry, hi, hr⟩ := hr
    refine ⟨i, registry, ?_, hr⟩
    exact (List.getElem?_append_left (List.getElem?_eq_some_iff.mp hi).1).trans hi
  refine ⟨h.pool, h.linkage, fun i registry hi r hr => ?_, fun r hr => ?_⟩
  · change (s.registries ++ [({} : Registry)])[i]? = some registry at hi
    rw [List.getElem?_append] at hi
    split at hi
    · exact h.routine i registry hi r hr
    · obtain rfl := List.mem_singleton.mp (List.mem_of_getElem? hi)
      cases hr
  · obtain ⟨hlt, hr', hanswers⟩ := h.resolution r hr
    exact ⟨hlt, hknows hr', hanswers⟩

/-- A new linkage is owned, and no other linkage is lost. -/
theorem Owned.newLinkage (h : s.Owned mappings owner) (registry : RegistryId) {mapping : Mapping}
    (hmapping : mappings mapping) :
    ∃ owner', (s.newLinkage registry mapping).2.Owned mappings owner' ∧
      owner' s.linkages = (s.newLinkage registry mapping).1 := by
  let owner' : Nat → Linkage := fun i =>
    if i = s.linkages then (s.newLinkage registry mapping).1 else owner i
  have hagree : ∀ i < s.linkages, owner' i = owner i := fun i hi => if_neg (Nat.ne_of_lt hi)
  have hnew : owner' s.linkages = (s.newLinkage registry mapping).1 := if_pos rfl
  refine ⟨owner', ⟨h.pool, fun i hi => ?_, fun i known hi r hr => ?_, fun r hr => ?_⟩, hnew⟩
  · rcases Nat.lt_succ_iff_lt_or_eq.mp hi with hi | rfl
    · rw [hagree i hi]
      exact h.linkage i hi
    · rw [hnew]
      exact hmapping
  · obtain ⟨hlt, howner, hrest⟩ := h.routine i known hi r hr
    exact ⟨Nat.lt_succ_of_lt hlt, (hagree _ hlt).trans howner, hrest⟩
  · obtain ⟨hlt, hr', hanswers⟩ := h.resolution r hr
    exact ⟨Nat.lt_succ_of_lt hlt, hr', (hagree _ hlt).symm ▸ hanswers⟩

/-- What a program that belongs to no routine leaves behind, if its registry may be dropped. -/
theorem runProgram_eq (mapping : Mapping) (program : Program) (source destination state : Value)
    (s : Session) :
    Session.runProgram mapping program source destination state s =
      match (program.ready (s.newRegistry.2.newLinkage s.newRegistry.1 mapping).2.pool
        mapping).run' 0 with
      | .error e => .error (.failed (.compile e))
          ((s.newRegistry.2.newLinkage s.newRegistry.1 mapping).2.dropRegistry s.newRegistry.1)
      | .ok ready =>
        match ready.run (Routine.run depthLimit)
          ⟨source, destination, state, (s.newRegistry.2.newLinkage s.newRegistry.1 mapping).1⟩
          (s.newRegistry.2.newLinkage s.newRegistry.1 mapping).2 with
        | .ok v s' => .ok v (s'.dropRegistry s.newRegistry.1)
        | .error stop s' => .error stop (s'.dropRegistry s.newRegistry.1) :=
  rfl

/-- A program run by itself has a registry of its own, which is dropped at the end. -/
theorem runProgram_of_stable {p q : Session → Prop} {mapping : Mapping}
    {source destination state : Value}
    (hstart : p (s.newRegistry.2.newLinkage s.newRegistry.1 mapping).2)
    (hstable : Session.Stable p (Routine.run depthLimit)
      ⟨source, destination, state, (s.newRegistry.2.newLinkage s.newRegistry.1 mapping).1⟩)
    (hdrop : ∀ s' id, p s' → q (s'.dropRegistry id)) (program : Program) :
    Ensures (Session.runProgram mapping program source destination state) s (fun _ => q)
      fun _ => q := by
  let s' := (s.newRegistry.2.newLinkage s.newRegistry.1 mapping).2
  let linkage := (s.newRegistry.2.newLinkage s.newRegistry.1 mapping).1
  unfold Ensures
  rw [runProgram_eq]
  cases (program.ready s'.pool mapping).run' 0 with
  | error e => exact hdrop s' _ hstart
  | ok ready =>
    have hrun := hstable.runProgram ready s' hstart
    unfold Ensures at hrun
    dsimp only
    cases hready : ready.run (Routine.run depthLimit) ⟨source, destination, state, linkage⟩ s' with
    | ok v s₁ =>
      rw [hready] at hrun
      exact hdrop s₁ _ hrun
    | error stop s₁ =>
      rw [hready] at hrun
      exact hdrop s₁ _ hrun

/-- What is compiled for a program that belongs to no routine does no harm. -/
theorem Owned.runProgram (h : s.Owned mappings owner) {mapping : Mapping}
    (hmapping : mappings mapping) (program : Program) (source destination state : Value) :
    (After (Session.runProgram mapping program source destination state) s).Coherent mappings := by
  obtain ⟨owner', howned, hnew⟩ := h.newRegistry.newLinkage s.newRegistry.1 hmapping
  refine (runProgram_of_stable (.refl howned)
    (howned.stable (Routine.run_evolving _) (Nat.lt_succ_self _) hnew) ?_ program).after
  intro s' id hs'
  obtain ⟨owner'', hs'⟩ := hs'.coherent
  exact ⟨owner'', hs'.modifyRegistry fun _ => rfl⟩

/-- Reachable sessions are coherent. -/
theorem Reachable.coherent (h : s.Reachable mappings) : s.Coherent mappings := by
  induction h with
  | start => exact ⟨fun _ => default, .refl _, fun _ hi => absurd hi (Nat.not_lt_zero _),
      fun i registry hi => by simp at hi, fun r hr => by cases hr⟩
  | withHeap _ heap ih =>
    obtain ⟨owner, ih⟩ := ih
    exact ⟨owner, ih.withHeap heap⟩
  | withCalls _ calls ih =>
    obtain ⟨owner, ih⟩ := ih
    exact ⟨owner, ih.withCalls calls⟩
  | withPool _ operation ih =>
    obtain ⟨owner, ih⟩ := ih
    exact ⟨owner, ih.withPool (operation.growsTo _)⟩
  | newRegistry _ ih =>
    obtain ⟨owner, ih⟩ := ih
    exact ⟨owner, ih.newRegistry⟩
  | shareRegistry _ id ih | dropRegistry _ id ih =>
    obtain ⟨owner, ih⟩ := ih
    exact ⟨owner, ih.modifyRegistry fun _ => rfl⟩
  | hold _ r ih | release _ r ih =>
    obtain ⟨owner, ih⟩ := ih
    exact ⟨owner, ih.pool, ih.linkage, ih.routine, ih.resolution⟩
  | @getOrCompile s _ registry mapping halive hmapping source target ih =>
    obtain ⟨owner, ih⟩ := ih
    let linkage : Linkage := ⟨⟨0⟩, registry, mapping⟩
    have hfinds : Ensures (Session.getOrCompile linkage.registry source target linkage.mapping) s
        _ _ := getOrCompile_finds ih source target hmapping (exists_of_registryAlive halive)
    exact (Ensures.after (hfinds.mono (fun _ _ h => h.evolves) fun _ _ h => h.1)).coherent
  | resolve _ hr link ih =>
    obtain ⟨owner, ih⟩ := ih
    obtain ⟨i, registry, hi, hr⟩ := hr
    obtain ⟨hlt, howner, -⟩ := ih.routine i registry hi _ hr
    have hfinds := resolve_finds ih link hlt howner
    exact (Ensures.after (hfinds.mono (fun _ _ h => h.evolves) fun _ _ h => h.1)).coherent
  | run _ hr depth source destination state ih =>
    obtain ⟨owner, ih⟩ := ih
    exact ((Routine.run_evolving depth owner _ _ ih hr source destination state).after).coherent
  | runProgram _ hmapping program source destination state ih =>
    obtain ⟨owner, ih⟩ := ih
    exact ih.runProgram hmapping program source destination state

theorem Reachable.growsTo (h : s.Reachable mappings) : Pool.initial.GrowsTo s.pool := by
  obtain ⟨owner, howned⟩ := h.coherent
  exact howned.pool

/-! ## Sessions for one routine -/

section

variable (operations : List Pool.Operation) (heap : Heap) (mapping : Mapping)
  (source target : ShapeId)

/-- A session with one registry, the shapes that come of the operations, and the heap. -/
def opening : Session :=
  { ({} : Session).newRegistry.2 with
    pool := operations.foldl Pool.Operation.apply Pool.initial
    heap := heap }

/-- The session in which the routine for the two shapes has been compiled. -/
def compiling : Session :=
  After (getOrCompile ⟨0⟩ source target mapping) (opening operations heap)

/-- The routine that has been compiled. -/
def compiled : Routine :=
  ((compiling operations heap mapping source target).cached? ⟨0⟩
    ⟨source, target, mapping.id⟩).getD default

theorem reachable_opening (mappings : Mapping → Prop) :
    (opening operations heap).Reachable mappings := by
  have hpool (pool : Pool) (h : Reachable mappings { ({} : Session).newRegistry.2 with pool }) :
      Reachable mappings { ({} : Session).newRegistry.2 with
        pool := operations.foldl Pool.Operation.apply pool } := by
    induction operations generalizing pool with
    | nil => exact h
    | cons operation operations ih => exact ih _ (h.withPool operation)
  exact (hpool Pool.initial (.newRegistry .start)).withHeap heap

theorem reachable_compiling :
    (compiling operations heap mapping source target).Reachable (· = mapping) := by
  have h := reachable_opening operations heap (· = mapping)
  exact h.getOrCompile rfl rfl source target

/-- The session keeps the routine, if it could be compiled. -/
theorem cached?_compiling
    (h : ((compiling operations heap mapping source target).cached? ⟨0⟩
      ⟨source, target, mapping.id⟩).isSome = true) :
    (compiling operations heap mapping source target).cached? ⟨0⟩ ⟨source, target, mapping.id⟩ =
      some (compiled operations heap mapping source target) := by
  obtain ⟨r, hr⟩ := Option.isSome_iff_exists.mp h
  rw [compiled, hr]
  rfl

/-- Compiling changes neither shapes nor values. -/
theorem pool_and_heap_compiling :
    (compiling operations heap mapping source target).pool =
        operations.foldl Pool.Operation.apply Pool.initial ∧
      (compiling operations heap mapping source target).heap = heap := by
  obtain ⟨owner, howned⟩ := (reachable_opening operations heap (· = mapping)).coherent
  let linkage : Linkage := ⟨⟨0⟩, ⟨0⟩, mapping⟩
  have hfinds : Ensures (getOrCompile linkage.registry source target linkage.mapping)
      (opening operations heap) _ _ := getOrCompile_finds howned source target rfl ⟨_, rfl⟩
  have hkept : Ensures (getOrCompile linkage.registry source target linkage.mapping)
      (opening operations heap)
      (fun _ s' => s'.pool = (opening operations heap).pool ∧ s'.heap = heap)
      fun _ s' => s'.pool = (opening operations heap).pool ∧ s'.heap = heap :=
    hfinds.mono (fun _ _ h => ⟨h.evolves.pool, h.heap⟩) fun _ _ h => ⟨h.1.pool, h.2⟩
  exact hkept.after

end

end Session

end Reshape
