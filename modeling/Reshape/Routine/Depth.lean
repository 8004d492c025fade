import Reshape.Routine.Run

/-!
# Depth of runs

`Routine.run` stops with `Stop.tooDeep` where it would need more routines within each other
than it was given. A run that ends in any other way ends in the same way with more depth
(`Routine.run_of_le`), with the same value or failure and the same session. So the outcome of a
conversion does not depend on the depth, provided that this is enough.

`AgreesUnless` compares two computations one of which may end early with a certain error. Code
and collection mappers pass it on from the routines that they run to themselves.
-/

namespace Reshape

/-- Wherever `x` does not end with the error `e`, `y` does what `x` does. -/
def AgreesUnless {ε σ α : Type} (e : ε) (x y : EStateM ε σ α) : Prop :=
  ∀ s, (∃ s', x s = .error e s') ∨ y s = x s

namespace AgreesUnless

variable {ε σ α β : Type} {e : ε}

theorem refl (x : EStateM ε σ α) : AgreesUnless e x x :=
  fun _ => Or.inr rfl

theorem bind {x y : EStateM ε σ α} {f g : α → EStateM ε σ β} (hx : AgreesUnless e x y)
    (hf : ∀ a, AgreesUnless e (f a) (g a)) : AgreesUnless e (x >>= f) (y >>= g) := by
  intro s
  change (∃ s', EStateM.bind x f s = .error e s') ∨ EStateM.bind y g s = EStateM.bind x f s
  unfold EStateM.bind
  rcases hx s with ⟨s', h⟩ | h
  · exact Or.inl ⟨s', by rw [h]⟩
  · rw [h]
    cases x s with
    | ok a s => exact hf a s
    | error e s => exact Or.inr rfl

theorem ite {p : Prop} [Decidable p] {x y x' y' : EStateM ε σ α} (h : AgreesUnless e x y)
    (h' : AgreesUnless e x' y') :
    AgreesUnless e (if p then x else x') (if p then y else y') := by
  split
  · exact h
  · exact h'

end AgreesUnless

/-- Wherever running a routine by `f` is not too deep, running it by `g` does the same. -/
def Invoke.Deepens (f g : Invoke) : Prop :=
  ∀ routine source destination state,
    AgreesUnless .tooDeep (f routine source destination state) (g routine source destination state)

theorem EvalM.run_agreesUnless {α : Type} {x y : RunM α} (h : AgreesUnless .tooDeep x y) :
    AgreesUnless (.stopped .tooDeep) (EvalM.run x) (EvalM.run y) := by
  intro m
  unfold EvalM.run
  rcases h m.session with ⟨s', h⟩ | h
  · exact Or.inl ⟨_, by rw [h]⟩
  · exact Or.inr (by rw [h])

/-! ## Code -/

mutual

theorem Code.eval_agreesUnless {f g : Invoke} (h : f.Deepens g) (frame : Frame) :
    ∀ code : Code,
      AgreesUnless (.stopped .tooDeep) (code.eval f frame) (code.eval g frame)
  | .argument _ | .readLocal _ | .declareLocal _ _ | .newInstance _ | .null => .refl _
  | .writeLocal _ value | .box value | .unbox value | .returns value | .readMember value _ _
  | .writeMember _ _ value | .convert _ value | .custom _ value => by
    simp only [Code.eval]
    exact .bind (Code.eval_agreesUnless h frame value) fun _ => .refl _
  | .sequence children => by
    simp only [Code.eval]
    exact Code.evalAll_agreesUnless h frame .null children
  | .invokeLinked link value destination => by
    simp only [Code.eval]
    refine .bind (Code.eval_agreesUnless h frame value) fun v => .ite (.refl _) ?_
    refine .bind (Code.eval_agreesUnless h frame destination) fun d => ?_
    exact EvalM.run_agreesUnless (.bind (.refl _) fun routine => h routine v d frame.state)
  | .invokeDynamic target value destination => by
    simp only [Code.eval]
    refine .bind (Code.eval_agreesUnless h frame value) fun v => .bind (.refl _) fun heap => ?_
    split
    · exact .refl _
    · refine .bind (Code.eval_agreesUnless h frame destination) fun d => ?_
      exact EvalM.run_agreesUnless (.bind (.refl _) fun routine => h routine v d frame.state)
  | .coalesce value fallback => by
    simp only [Code.eval]
    exact .bind (Code.eval_agreesUnless h frame value) fun _ =>
      .ite (Code.eval_agreesUnless h frame fallback) (.refl _)
  | .ifNotNull test body => by
    simp only [Code.eval]
    exact .bind (Code.eval_agreesUnless h frame test) fun _ =>
      .ite (.refl _) (Code.eval_agreesUnless h frame body)

theorem Code.evalAll_agreesUnless {f g : Invoke} (h : f.Deepens g) (frame : Frame) (last : Value) :
    ∀ codes : List Code,
      AgreesUnless (.stopped .tooDeep) (Code.evalAll f frame last codes)
        (Code.evalAll g frame last codes)
  | [] => .refl _
  | code :: codes => by
    simp only [Code.evalAll]
    exact .bind (Code.eval_agreesUnless h frame code) fun v =>
      Code.evalAll_agreesUnless h frame v codes

end

theorem ReadyProgram.run_agreesUnless {f g : Invoke} (h : f.Deepens g) (program : ReadyProgram)
    (frame : Frame) : AgreesUnless .tooDeep (program.run f frame) (program.run g frame) := by
  intro s
  unfold ReadyProgram.run
  rcases program.code.eval_agreesUnless h frame (program.start s) with ⟨m, h⟩ | h
  · exact Or.inl ⟨m.session, by rw [h]⟩
  · exact Or.inr (by rw [h])

/-! ## Collections -/

namespace CollectionMapper

variable {f g : Invoke} (h : f.Deepens g) (mapper : CollectionMapper) (frame : Frame)

include h

theorem mapElement_agreesUnless (element : Value) :
    AgreesUnless .tooDeep (mapper.mapElement f frame element)
      (mapper.mapElement g frame element) := by
  unfold mapElement
  refine .ite (.refl _) ?_
  split
  · exact .refl _
  · exact .bind (.refl _) fun routine =>
      .bind (h routine element .null frame.state) fun _ => .refl _
  · refine .bind (.refl _) fun s => ?_
    split
    · exact .refl _
    · exact .bind (.refl _) fun routine =>
        .bind (h routine element .null frame.state) fun _ => .refl _

theorem mapElements_agreesUnless (elements : List Value) :
    AgreesUnless .tooDeep (mapper.mapElements f frame elements)
      (mapper.mapElements g frame elements) := by
  unfold mapElements
  induction elements with
  | nil => exact .refl _
  | cons element elements ih =>
    rw [List.mapM_cons, List.mapM_cons]
    exact .bind (mapElement_agreesUnless h mapper frame element) fun _ => .bind ih fun _ => .refl _

theorem appendElements_agreesUnless (a : Address) (elements : List Value) :
    AgreesUnless .tooDeep (mapper.appendElements f frame a elements)
      (mapper.appendElements g frame a elements) := by
  unfold appendElements
  induction elements with
  | nil => exact .refl _
  | cons element elements ih =>
    exact .bind (.bind (mapElement_agreesUnless h mapper frame element) fun _ => .refl _)
      fun _ => ih

theorem newContainer?_agreesUnless :
    AgreesUnless .tooDeep (mapper.newContainer? f frame) (mapper.newContainer? g frame) := by
  unfold newContainer?
  split
  · exact .refl _
  · exact .bind (ReadyProgram.run_agreesUnless h _ _) fun _ => .refl _

theorem container?_agreesUnless :
    AgreesUnless .tooDeep (mapper.container? f frame) (mapper.container? g frame) := by
  unfold container?
  refine .bind (.refl _) fun s => ?_
  split
  · exact .refl _
  · exact newContainer?_agreesUnless h mapper frame

theorem run_agreesUnless : AgreesUnless .tooDeep (mapper.run f frame) (mapper.run g frame) := by
  have hnew : AgreesUnless .tooDeep
      (do RunM.onHeap (Heap.alloc (.seq mapper.target
        (← mapper.mapElements f frame (← sourceElements frame.source)).toArray)))
      (do RunM.onHeap (Heap.alloc (.seq mapper.target
        (← mapper.mapElements g frame (← sourceElements frame.source)).toArray))) :=
    .bind (.refl _) fun elements =>
      .bind (mapElements_agreesUnless h mapper frame elements) fun _ => .refl _
  unfold run
  refine .ite (.refl _) ?_
  split
  · exact hnew
  · exact hnew
  · exact hnew
  · refine .bind (container?_agreesUnless h mapper frame) fun container? => ?_
    split
    · exact .refl _
    · exact .bind (.refl _) fun elements =>
        .bind (appendElements_agreesUnless h mapper frame _ elements) fun _ => .refl _

end CollectionMapper

/-! ## Routines -/

theorem Routine.run_deepens (depth : Nat) :
    Invoke.Deepens (Routine.run depth) (Routine.run (depth + 1)) := by
  induction depth with
  | zero => exact fun _ _ _ _ s => Or.inl ⟨s, rfl⟩
  | succ depth ih =>
    intro routine source destination state
    unfold Routine.run
    dsimp only
    split
    · exact ReadyProgram.run_agreesUnless ih _ _
    · exact CollectionMapper.run_agreesUnless ih _ _
    · exact .refl _

/-- A run that is not too deep does the same with more depth. -/
theorem Routine.run_of_le {depth more : Nat} (hle : depth ≤ more) {routine : Routine}
    {source destination state : Value} {s : Session}
    (h : ∀ s', routine.run depth source destination state s ≠ .error .tooDeep s') :
    routine.run more source destination state s = routine.run depth source destination state s := by
  induction hle with
  | refl => rfl
  | @step more _ ih =>
    rcases Routine.run_deepens more routine source destination state s with ⟨s', hs⟩ | hs
    · exact absurd (ih ▸ hs) (h s')
    · rw [hs, ih]

end Reshape
