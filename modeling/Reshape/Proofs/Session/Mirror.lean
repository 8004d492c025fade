import Reshape.Proofs.Outcome
import Reshape.Routine.Run

/-!
# Two runs side by side

Two computations mirror each other (`Mirrors`) if from related states they end alike : with the
same value or the same error, in related states. Code and collection mappers mirror themselves in
two sessions with the same heap as long as calling converters and finding and running routines is
mirrored (`Session.Abreast.runProgram`, `Session.Abreast.runMapper`). The arguments that they do
not use may differ (`Code.Uses`), and they may look for routines in different places.

With one session twice, and a property of it instead of a relation (`Jointly`), this is about what
two runs from there have in common, or about what a single one keeps.
-/

set_option linter.unusedSectionVars false

namespace Reshape

/-! ## Computations -/

section

variable {ε σ α β : Type}

/-- The same value or the same error, in states that `p` relates. -/
def Alike (p : σ → σ → Prop) : EStateM.Result ε σ α → EStateM.Result ε σ α → Prop
  | .ok a s, .ok b t => a = b ∧ p s t
  | .error e s, .error e' t => e = e' ∧ p s t
  | _, _ => False

/-- From states that `p` relates, the two end alike. -/
def Mirrors (p : σ → σ → Prop) (x y : EStateM ε σ α) : Prop :=
  ∀ s t, p s t → Alike p (x s) (y t)

variable {p q : σ → σ → Prop}

theorem Alike.mono {x y : EStateM.Result ε σ α} (hpq : ∀ s t, p s t → q s t) (h : Alike p x y) :
    Alike q x y := by
  cases x <;> cases y <;> first | exact ⟨h.1, hpq _ _ h.2⟩ | exact h.elim

namespace Mirrors

theorem pure (a : α) : Mirrors p (Pure.pure a : EStateM ε σ α) (Pure.pure a) :=
  fun _ _ h => ⟨rfl, h⟩

theorem throw (e : ε) :
    Mirrors p (MonadExcept.throw e : EStateM ε σ α) (MonadExcept.throw e) :=
  fun _ _ h => ⟨rfl, h⟩

theorem bind {x y : EStateM ε σ α} {f g : α → EStateM ε σ β} (hx : Mirrors p x y)
    (hf : ∀ a, Mirrors p (f a) (g a)) : Mirrors p (x >>= f) (y >>= g) := by
  intro s t h
  change Alike p (EStateM.bind x f s) (EStateM.bind y g t)
  unfold EStateM.bind
  have hx := hx s t h
  cases hs : x s <;> cases ht : y t <;> rw [hs, ht] at hx
  case ok.ok a s' b t' =>
    obtain ⟨rfl, hx⟩ := hx
    exact hf a s' t' hx
  case error.error e s' e' t' => exact hx
  all_goals exact hx.elim

/-- What is read of the states may differ. -/
theorem get {f g : σ → EStateM ε σ β} (hf : ∀ s t, p s t → Mirrors p (f s) (g t)) :
    Mirrors p (get >>= f) (get >>= g) :=
  fun s t h => hf s t h s t h

theorem ite {c : Prop} [Decidable c] {x y x' y' : EStateM ε σ α} (h : c → Mirrors p x y)
    (h' : ¬c → Mirrors p x' y') : Mirrors p (if c then x else x') (if c then y else y') := by
  split
  · exact h ‹_›
  · exact h' ‹_›

theorem mapM {f g : α → EStateM ε σ β} (h : ∀ a, Mirrors p (f a) (g a)) (as : List α) :
    Mirrors p (as.mapM f) (as.mapM g) := by
  induction as with
  | nil => exact .pure _
  | cons a as ih =>
    rw [List.mapM_cons, List.mapM_cons]
    exact .bind (h a) fun _ => .bind ih fun _ => .pure _

theorem forM {f g : α → EStateM ε σ Unit} (h : ∀ a, Mirrors p (f a) (g a)) (as : List α) :
    Mirrors p (as.forM f) (as.forM g) := by
  induction as with
  | nil => exact .pure _
  | cons a as ih => exact .bind (h a) fun _ => ih

end Mirrors

/-- The two states are one, and it has the property. -/
def Jointly (p : σ → Prop) (s t : σ) : Prop := t = s ∧ p s

/-- Two computations that do the same where the property holds, and keep it. -/
theorem mirrors_jointly_iff {p : σ → Prop} {x y : EStateM ε σ α} :
    Mirrors (Jointly p) x y ↔ ∀ s, p s → y s = x s ∧ Ensures x s (fun _ => p) fun _ => p := by
  constructor
  · intro h s hs
    have h := h s s ⟨rfl, hs⟩
    unfold Ensures
    cases hx : x s <;> cases hy : y s <;> rw [hx, hy] at h
    case ok.ok =>
      obtain ⟨rfl, rfl, h⟩ := h
      exact ⟨rfl, h⟩
    case error.error =>
      obtain ⟨rfl, rfl, h⟩ := h
      exact ⟨rfl, h⟩
    all_goals exact h.elim
  · intro h s t hst
    obtain ⟨rfl, hs⟩ := hst
    obtain ⟨heq, h⟩ := h t hs
    unfold Ensures at h
    rw [heq]
    cases hx : x t <;> rw [hx] at h <;> exact ⟨rfl, rfl, h⟩

end

/-! ## Machines -/

/-- The machines hold the same locals, in sessions that `p` relates. -/
structure Machine.Related (p : Session → Session → Prop) (m n : Machine) : Prop where
  locals : n.locals = m.locals
  session : p m.session n.session

namespace EvalM

variable {α : Type} {p : Session → Session → Prop}

theorem run_mirrors {x y : RunM α} (h : Mirrors p x y) :
    Mirrors (Machine.Related p) (run x) (run y) := by
  intro m n hmn
  have h := h m.session n.session hmn.session
  unfold run
  cases hx : x m.session <;> cases hy : y n.session <;> rw [hx, hy] at h
  case ok.ok => exact ⟨h.1, hmn.locals, h.2⟩
  case error.error => exact ⟨congrArg Exit.stopped h.1, hmn.locals, h.2⟩
  all_goals exact h.elim

theorem note_mirrors (event : LocalEvent) :
    Mirrors (Machine.Related p) (note event) (note event) :=
  fun _ _ h => ⟨rfl, h.locals, h.session⟩

theorem load_mirrors (id : LocalId) : Mirrors (Machine.Related p) (load id) (load id) :=
  fun _ _ h => ⟨by rw [h.locals], h⟩

theorem store_mirrors (id : LocalId) (v : Value) :
    Mirrors (Machine.Related p) (store id v) (store id v) :=
  fun _ _ h => ⟨rfl, congrArg (·.set id.index v) h.locals, h.session⟩

theorem heap_mirrors (h : ∀ s t, p s t → t.heap = s.heap) :
    Mirrors (Machine.Related p) heap heap :=
  fun _ _ hmn => ⟨(h _ _ hmn.session).symm, hmn⟩

end EvalM

/-! ## What code uses -/

mutual

/-- The arguments that the code reads, and the converters that it calls, are among these. -/
def Code.Uses (arguments : Argument → Prop) (converters : Registered → Prop) : Code → Prop
  | .argument a => arguments a
  | .readLocal _ | .declareLocal _ _ | .newInstance _ | .null => True
  | .writeLocal _ value | .box value | .unbox value | .returns value | .readMember value _ _
  | .writeMember _ _ value | .convert _ value => value.Uses arguments converters
  | .custom converter value => converters converter ∧ value.Uses arguments converters
  | .sequence children => Code.Use arguments converters children
  | .invokeLinked _ first second | .invokeDynamic _ first second | .coalesce first second
  | .ifNotNull first second =>
    first.Uses arguments converters ∧ second.Uses arguments converters

/-- The same of codes. -/
def Code.Use (arguments : Argument → Prop) (converters : Registered → Prop) : List Code → Prop
  | [] => True
  | code :: codes => code.Uses arguments converters ∧ Code.Use arguments converters codes

end

mutual

/-- All code uses some arguments and converters. -/
theorem Code.uses : ∀ code : Code, code.Uses (fun _ => True) fun _ => True
  | .argument _ | .readLocal _ | .declareLocal _ _ | .newInstance _ | .null => True.intro
  | .writeLocal _ value | .box value | .unbox value | .returns value | .readMember value _ _
  | .writeMember _ _ value | .convert _ value => (value.uses :)
  | .custom _ value => ⟨True.intro, value.uses⟩
  | .sequence children => (Code.use children :)
  | .invokeLinked _ first second | .invokeDynamic _ first second | .coalesce first second
  | .ifNotNull first second => ⟨first.uses, second.uses⟩

theorem Code.use : ∀ codes : List Code, Code.Use (fun _ => True) (fun _ => True) codes
  | [] => True.intro
  | code :: codes => ⟨code.uses, Code.use codes⟩

end

/-! ## Code and collection mappers -/

/-- A relation between sessions with the same heap, which changes of it keep. Calling one of the
converters is mirrored, with the states of both frames, and so is finding and running another
routine. The frames have these arguments in common. -/
structure Session.Abreast (p : Session → Session → Prop) (arguments : Argument → Prop)
    (converters : Registered → Prop) (invoke : Invoke) (frame frame' : Frame) : Prop where
  argument : ∀ a, arguments a → frame'.argument a = frame.argument a
  heap_eq : ∀ s t, p s t → t.heap = s.heap
  heap : ∀ s t heap, p s t → p { s with heap := heap } { t with heap := heap }
  call : ∀ c, converters c → ∀ v : Value, v ≠ .null → Mirrors p
    (Session.callConverter c v frame.state) (Session.callConverter c v frame'.state)
  linked : ∀ link v d, Mirrors p
    (Session.resolve frame.linkage link >>= fun routine => invoke routine v d frame.state)
    (Session.resolve frame'.linkage link >>= fun routine => invoke routine v d frame'.state)
  dynamic : ∀ source target v d, Mirrors p
    (Session.resolveDynamic frame.linkage source target >>= fun routine =>
      invoke routine v d frame.state)
    (Session.resolveDynamic frame'.linkage source target >>= fun routine =>
      invoke routine v d frame'.state)

namespace Session.Abreast

variable {α : Type} {p : Session → Session → Prop} {arguments : Argument → Prop}
  {converters : Registered → Prop} {invoke : Invoke} {frame frame' : Frame}
  (h : Session.Abreast p arguments converters invoke frame frame')

include h

theorem onHeap (f : Heap → α × Heap) : Mirrors p (RunM.onHeap f) (RunM.onHeap f) := by
  intro s t hst
  unfold RunM.onHeap
  rw [h.heap_eq s t hst]
  exact ⟨rfl, h.heap s t _ hst⟩

theorem onHeapExcept {ε : Type} (wrap : ε → ConversionError) (f : Heap → Except ε α × Heap) :
    Mirrors p (RunM.onHeapExcept wrap f) (RunM.onHeapExcept wrap f) := by
  intro s t hst
  unfold RunM.onHeapExcept
  rw [h.heap_eq s t hst]
  rcases f s.heap with ⟨_ | _, heap⟩ <;> exact ⟨rfl, h.heap s t heap hst⟩

mutual

/-- By the expression : code that uses the same arguments and converters does the same in both
frames. -/
theorem eval : ∀ code : Code, code.Uses arguments converters →
    Mirrors (Machine.Related p) (code.eval invoke frame) (code.eval invoke frame')
  | .argument a, hargument => by
    simp only [Code.eval, h.argument a hargument]
    exact .pure _
  | .null, _ => by
    simp only [Code.eval]
    exact .pure _
  | .readLocal id, _ => by
    simp only [Code.eval]
    exact .bind (EvalM.note_mirrors _) fun _ => EvalM.load_mirrors id
  | .declareLocal id zero, _ => by
    simp only [Code.eval]
    exact .bind (EvalM.note_mirrors _) fun _ => .bind (EvalM.store_mirrors id zero) fun _ => .pure _
  | .newInstance template, _ => by
    simp only [Code.eval]
    exact EvalM.run_mirrors (h.onHeap _)
  | .writeLocal id value, hvalue => by
    simp only [Code.eval]
    exact .bind (eval value hvalue) fun v => .bind (EvalM.note_mirrors _) fun _ =>
      .bind (EvalM.store_mirrors id v) fun _ => .pure _
  | .box value, hvalue => by
    simp only [Code.eval]
    exact .bind (eval value hvalue) fun _ => EvalM.run_mirrors (h.onHeap _)
  | .unbox value, hvalue => by
    simp only [Code.eval]
    exact .bind (eval value hvalue) fun _ => .pure _
  | .returns value, hvalue => by
    simp only [Code.eval]
    exact .bind (eval value hvalue) fun _ => .throw _
  | .sequence children, hchildren => by
    simp only [Code.eval]
    exact evalAll .null children hchildren
  | .invokeLinked link value destination, ⟨hvalue, hdestination⟩ => by
    simp only [Code.eval]
    refine .bind (eval value hvalue) fun v => .ite (fun _ => .bind (EvalM.note_mirrors _)
      fun _ => .pure _) fun _ => ?_
    exact .bind (eval destination hdestination) fun d => EvalM.run_mirrors (h.linked link v d)
  | .invokeDynamic target value destination, ⟨hvalue, hdestination⟩ => by
    simp only [Code.eval]
    refine .bind (eval value hvalue) fun v => .bind (EvalM.heap_mirrors h.heap_eq) fun heap => ?_
    split
    · exact .bind (EvalM.note_mirrors _) fun _ => .pure _
    · exact .bind (eval destination hdestination) fun d =>
        EvalM.run_mirrors (h.dynamic _ _ v d)
  | .readMember object _ _, hobject => by
    simp only [Code.eval]
    refine .bind (eval object hobject) fun v => .bind (EvalM.heap_mirrors h.heap_eq) fun heap => ?_
    split
    · exact .pure _
    · exact .ite (fun _ => .pure _) fun _ => .throw _
  | .writeMember id _ value, hvalue => by
    simp only [Code.eval]
    refine .bind (eval value hvalue) fun v => .bind (EvalM.note_mirrors _) fun _ =>
      .bind (EvalM.load_mirrors id) fun _ => ?_
    exact .bind (EvalM.run_mirrors (h.onHeap _)) fun record =>
      .bind (EvalM.store_mirrors id record) fun _ => .pure _
  | .coalesce value fallback, ⟨hvalue, hfallback⟩ => by
    simp only [Code.eval]
    exact .bind (eval value hvalue) fun _ =>
      .ite (fun _ => eval fallback hfallback) fun _ => .pure _
  | .ifNotNull test body, ⟨htest, hbody⟩ => by
    simp only [Code.eval]
    exact .bind (eval test htest) fun _ => .ite (fun _ => .pure _) fun _ => eval body hbody
  | .convert target value, hvalue => by
    simp only [Code.eval]
    exact .bind (eval value hvalue) fun _ => EvalM.run_mirrors (h.onHeapExcept _ _)
  | .custom converter value, ⟨hconverter, hvalue⟩ => by
    simp only [Code.eval]
    refine .bind (eval value hvalue) fun v => .ite (fun _ => .pure _) fun hnull => ?_
    exact EvalM.run_mirrors (h.call converter hconverter v fun hv => hnull (by rw [hv]; rfl))

theorem evalAll (last : Value) : ∀ codes : List Code, Code.Use arguments converters codes →
    Mirrors (Machine.Related p) (Code.evalAll invoke frame last codes)
      (Code.evalAll invoke frame' last codes)
  | [], _ => by
    simp only [Code.evalAll]
    exact .pure _
  | code :: codes, ⟨hcode, hcodes⟩ => by
    simp only [Code.evalAll]
    exact .bind (eval code hcode) fun v => evalAll v codes hcodes

end

theorem runProgram (program : ReadyProgram) (hcode : program.code.Uses arguments converters) :
    Mirrors p (program.run invoke frame) (program.run invoke frame') := by
  intro s t hst
  have heval := h.eval program.code hcode (program.start s) (program.start t) ⟨rfl, hst⟩
  unfold ReadyProgram.run
  cases hs : program.code.eval invoke frame (program.start s) <;>
    cases ht : program.code.eval invoke frame' (program.start t) <;>
    rw [hs, ht] at heval
  case ok.ok => exact ⟨heval.1, heval.2.session⟩
  case error.error e _ _ _ =>
    obtain ⟨rfl, heval⟩ := heval
    cases e <;> exact ⟨rfl, heval.session⟩
  all_goals exact heval.elim

variable (mapper : CollectionMapper)

theorem mapElement (element : Value) :
    Mirrors p (mapper.mapElement invoke frame element)
      (mapper.mapElement invoke frame' element) := by
  unfold CollectionMapper.mapElement
  refine .ite (fun _ => .pure _) fun _ => ?_
  split
  · exact .pure _
  · rename_i link _
    have hmapped := (h.linked link element .null).bind fun mapped =>
      .pure (if mapper.inlineElements then mapped.unboxed else mapped)
    rw [bind_assoc, bind_assoc] at hmapped
    exact hmapped
  · rename_i target _
    refine .get fun s t hst => ?_
    rw [h.heap_eq s t hst]
    split
    · exact .pure _
    · rename_i shape _
      have hmapped := (h.dynamic shape (target.getD shape) element .null).bind fun mapped =>
        .pure (if mapper.inlineElements then mapped.unboxed else mapped)
      rw [bind_assoc, bind_assoc] at hmapped
      exact hmapped

theorem push (a : Address) (v : Value) :
    Mirrors p (modify fun s => { s with heap := s.heap.push a v } : RunM Unit)
      (modify fun s => { s with heap := s.heap.push a v }) := by
  intro s t hst
  refine ⟨rfl, ?_⟩
  change p { s with heap := s.heap.push a v } { t with heap := t.heap.push a v }
  rw [h.heap_eq s t hst]
  exact h.heap s t _ hst

theorem withArguments (source destination : Value) : Session.Abreast p arguments converters invoke
    { frame with source := source, destination := destination }
    { frame' with source := source, destination := destination } :=
  ⟨fun a ha => match a with
    | .source | .destination => rfl
    | .state => h.argument .state ha, h.heap_eq, h.heap, h.call, h.linked, h.dynamic⟩

theorem sourceElements (source : Value) : Mirrors p (CollectionMapper.sourceElements source)
    (CollectionMapper.sourceElements source) :=
  .get fun s t hst => by
    rw [h.heap_eq s t hst]
    exact .pure _

variable (hconstruct : ∀ program ∈ mapper.construct, program.code.Uses arguments converters)

include hconstruct

theorem newContainer? :
    Mirrors p (mapper.newContainer? invoke frame) (mapper.newContainer? invoke frame') := by
  unfold CollectionMapper.newContainer?
  split
  · exact .pure _
  · rename_i program hprogram
    refine .bind ((h.withArguments .null .null).runProgram program (hconstruct program hprogram))
      fun made => .get fun s t hst => ?_
    rw [h.heap_eq s t hst]
    split
    · exact .pure _
    · exact .pure _

variable (hsource : arguments .source) (hdestination : arguments .destination)

include hdestination

theorem container? :
    Mirrors p (mapper.container? invoke frame) (mapper.container? invoke frame') := by
  unfold CollectionMapper.container?
  refine .get fun s t hst => ?_
  rw [h.heap_eq s t hst,
    show frame'.destination = frame.destination from h.argument .destination hdestination]
  split
  · exact .pure _
  · exact h.newContainer? mapper hconstruct

include hsource

theorem runMapper : Mirrors p (mapper.run invoke frame) (mapper.run invoke frame') := by
  have hframe : frame'.source = frame.source := h.argument .source hsource
  have hnew : Mirrors p
      (do RunM.onHeap (Heap.alloc (.seq mapper.target (← mapper.mapElements invoke frame
        (← CollectionMapper.sourceElements frame.source)).toArray)))
      (do RunM.onHeap (Heap.alloc (.seq mapper.target (← mapper.mapElements invoke
        frame' (← CollectionMapper.sourceElements frame.source)).toArray))) :=
    .bind (h.sourceElements _) fun elements =>
      .bind (.mapM (h.mapElement mapper) elements) fun _ => h.onHeap _
  unfold CollectionMapper.run
  rw [hframe]
  refine .ite (fun _ => .pure _) fun _ => ?_
  split
  · exact hnew
  · exact hnew
  · exact hnew
  · refine .bind (h.container? mapper hconstruct hdestination) fun container? => ?_
    split
    · exact .pure _
    · refine .bind (h.sourceElements _) fun elements => .bind (.forM ?_ elements) fun _ => .pure _
      exact fun element => .bind (h.mapElement mapper element) fun mapped => h.push _ mapped

end Session.Abreast

/-! ## Two places to look for routines -/

/-- A relation between sessions with the same heap and the same calls, which changes of these
keep, and finding and running other routines as well. The code of the second run looks for
routines with another linkage. -/
structure Session.Mirrored (p : Session → Session → Prop) (invoke : Invoke) (frame : Frame)
    (linkage : Linkage) : Prop where
  heap_eq : ∀ s t, p s t → t.heap = s.heap
  calls_eq : ∀ s t, p s t → t.calls = s.calls
  heap : ∀ s t heap, p s t → p { s with heap := heap } { t with heap := heap }
  calls : ∀ s t calls, p s t → p { s with calls := calls } { t with calls := calls }
  linked : ∀ link v d, Mirrors p
    (Session.resolve frame.linkage link >>= fun routine => invoke routine v d frame.state)
    (Session.resolve linkage link >>= fun routine => invoke routine v d frame.state)
  dynamic : ∀ source target v d, Mirrors p
    (Session.resolveDynamic frame.linkage source target >>= fun routine =>
      invoke routine v d frame.state)
    (Session.resolveDynamic linkage source target >>= fun routine =>
      invoke routine v d frame.state)

/-- The frame of the second run. -/
def Frame.relink (frame : Frame) (linkage : Linkage) : Frame :=
  { frame with linkage := linkage }

namespace Session.Mirrored

variable {α : Type} {p : Session → Session → Prop} {invoke : Invoke} {frame : Frame}
  {linkage : Linkage} (h : Session.Mirrored p invoke frame linkage)

include h

theorem callConverter (c : Registered) (v state : Value) :
    Mirrors p (Session.callConverter c v state) (Session.callConverter c v state) := by
  refine .bind (fun s t hst => ?_) fun _ s t hst => ?_
  · have hcall : t.converterCall c v state :: t.calls = s.converterCall c v state :: s.calls := by
      unfold Session.converterCall
      rw [h.heap_eq s t hst, h.calls_eq s t hst]
    refine ⟨rfl, ?_⟩
    change p { s with calls := s.converterCall c v state :: s.calls }
      { t with calls := t.converterCall c v state :: t.calls }
    rw [hcall]
    exact h.calls s t _ hst
  · unfold RunM.onHeapExcept
    rw [h.heap_eq s t hst]
    rcases c.converter.apply v state s.heap with ⟨_ | _, heap⟩ <;>
      exact ⟨rfl, h.heap s t heap hst⟩

/-- All arguments are the same. -/
theorem abreast : Session.Abreast p (fun _ => True) (fun _ => True) invoke frame
    (frame.relink linkage) :=
  ⟨fun a _ => by cases a <;> rfl, h.heap_eq, h.heap, fun c _ v _ => h.callConverter c v _, h.linked,
    h.dynamic⟩

theorem runProgram (program : ReadyProgram) :
    Mirrors p (program.run invoke frame) (program.run invoke (frame.relink linkage)) :=
  h.abreast.runProgram program program.code.uses

theorem runMapper (mapper : CollectionMapper) :
    Mirrors p (mapper.run invoke frame) (mapper.run invoke (frame.relink linkage)) :=
  h.abreast.runMapper mapper (fun program _ => program.code.uses) trivial trivial

end Session.Mirrored

end Reshape
