import Reshape.Proofs.Routine.Contract
import Reshape.Proofs.Value.Confined

/-!
# Confined runs

Code can only get at what it is given. If its arguments refer to places of a closed set, then so
does all that it computes, and it changes nothing but instances of the set and those that it makes,
whatever routines it runs (`Routine.run_confined`). Converters are supplied from outside and have to
promise the same (`Converter.Confined`). What code has of its own, the zero values and templates
that it was compiled with, refers to nothing.
-/

set_option linter.unusedSectionVars false

namespace Reshape

/-! ## Confined code -/

/-- What the converter does with values that refer to places of a closed set stays in the set. -/
def Converter.Confined (p : Address → Prop) (c : Converter) : Prop :=
  ∀ (heap : Heap) (v state : Value), (∀ a, heap.size ≤ a.index → p a) →
    Heap.Confined p heap heap → v.Within p → state.Within p →
      Heap.Confined p heap (c.apply v state heap).2 ∧
        ∀ w, (c.apply v state heap).1 = .ok w → w.Within p

/-- The converters of the mapping stay in the set. -/
def Mapping.Confined (p : Address → Prop) (mapping : Mapping) : Prop :=
  ∀ c ∈ mapping.converters, c.converter.Confined p

/-- The values that instances start with. -/
def Template.values (t : Template) : List Value :=
  match t.initial with
  | .zero value => [value]
  | .object fields => fields
  | .seq | .absent => []

mutual

/-- The values that code holds refer to places of the set, and the converters stay in it. -/
def Code.Confined (p : Address → Prop) : Code → Prop
  | .argument _ | .readLocal _ | .null => True
  | .declareLocal _ zero => zero.Within p
  | .newInstance template => ∀ v ∈ template.values, v.Within p
  | .writeLocal _ value | .box value | .unbox value | .returns value | .readMember value _ _
  | .writeMember _ _ value | .convert _ value => value.Confined p
  | .sequence children => Code.ConfinedAll p children
  | .invokeLinked _ value other | .invokeDynamic _ value other | .coalesce value other
  | .ifNotNull value other => value.Confined p ∧ other.Confined p
  | .custom converter value => converter.converter.Confined p ∧ value.Confined p

/-- The same for codes. -/
def Code.ConfinedAll (p : Address → Prop) : List Code → Prop
  | [] => True
  | code :: codes => code.Confined p ∧ Code.ConfinedAll p codes

end

/-- The converter, if there is one, stays in the set. -/
def Transfer.Confined (p : Address → Prop) : Transfer → Prop
  | .custom c => c.converter.Confined p
  | _ => True

theorem Template.within_of_ofShape {pool : Pool} {shape : ShapeId} {t : Template}
    (h : ofShape pool shape = .ok t) (p : Address → Prop) : ∀ v ∈ t.values, v.Within p := by
  unfold ofShape at h
  obtain ⟨known, -, h⟩ := Except.bind_eq_ok_iff.mp h
  split at h
  · obtain ⟨value, hvalue, h⟩ := Except.bind_eq_ok_iff.mp h
    cases h
    intro v hv
    obtain rfl := List.mem_singleton.mp hv
    exact Pool.within_of_zeroValue hvalue p
  · split at h
    · cases h
      exact fun _ hv => nomatch hv
    · split at h
      · obtain ⟨fields, hfields, h⟩ := Except.bind_eq_ok_iff.mp h
        cases h
        exact fun v hv => (Pool.of_mapM_zeroValue hfields).2.1 v hv p
      · cases h
        exact fun _ hv => nomatch hv
      · cases h
        exact fun _ hv => nomatch hv

section

variable {pool : Pool} {mapping : Mapping} {p : Address → Prop} (hmapping : mapping.Confined p)

include hmapping

mutual

/-- Code for a mapping with such converters refers to places of the set. -/
theorem Expr.Coded.confined : ∀ {e : Expr} {code : Code}, e.Coded pool mapping code →
    code.Confined p
  | .argument _, _, .argument | .readLocal _, _, .readLocal | .null, _, .null => True.intro
  | .declareLocal _ _, _, .declareLocal hzero => Pool.within_of_zeroValue hzero p
  | .newInstance _, _, .newInstance htemplate => Template.within_of_ofShape htemplate p
  | .writeLocal _ _, _, .writeLocal hvalue | .box _, _, .box hvalue | .unbox _, _, .unbox hvalue
  | .returns _, _, .returns hvalue | .readMember _ _ _, _, .readMember hvalue
  | .writeMember _ _ _, _, .writeMember hvalue
  | .convert (.primitive _ _) _, _, .convert hvalue => by
    rw [Code.Confined]
    exact hvalue.confined
  | .convert (.custom _) _, _, .custom hc hvalue =>
    ⟨hmapping _ (List.mem_of_getElem? hc), hvalue.confined⟩
  | .sequence _, _, .sequence hs => hs.confinedAll
  | .coalesce _ _, _, .coalesce hvalue hother | .ifNotNull _ _, _, .ifNotNull hvalue hother
  | .invoke _ _ _ _, _, .invokeLinked _ hvalue hother
  | .invoke _ _ _ _, _, .invokeDynamic hvalue hother => ⟨hvalue.confined, hother.confined⟩

theorem Expr.CodedAll.confinedAll : ∀ {es : List Expr} {codes : List Code},
    Expr.CodedAll pool mapping es codes → Code.ConfinedAll p codes
  | [], _, .nil => True.intro
  | _ :: _, _, .cons h hs => ⟨h.confined, hs.confinedAll⟩

end

theorem Program.confined_of_ready {program : Program} {n n' : Nat} {made : ReadyProgram}
    (h : program.ready pool mapping n = .ok (made, n')) : made.code.Confined p :=
  (coded_of_ready h).2.1.confined hmapping

end

/-! ## What computations yield -/

/-- The computation keeps the property, however it ends, and its value is good. -/
def RunM.Yields {α : Type} (q : Session → Prop) (good : α → Prop) (x : RunM α) : Prop :=
  ∀ s, q s → Ensures x s (fun a s' => q s' ∧ good a) fun _ => q

/-- The locals refer to places of the set, in a session with the property. -/
structure Machine.Confined (p : Address → Prop) (q : Session → Prop) (m : Machine) : Prop where
  session : q m.session
  locals : ∀ v ∈ m.locals, v.Within p

/-- What is returned refers to places of the set. -/
def Exit.Confined (p : Address → Prop) : Exit → Prop
  | .returned v => v.Within p
  | .stopped _ => True

/-- The same on machines. -/
def EvalM.Yields {α : Type} (p : Address → Prop) (q : Session → Prop) (good : α → Prop)
    (x : EvalM α) : Prop :=
  ∀ m : Machine, m.Confined p q → Ensures x m (fun a m' => m'.Confined p q ∧ good a)
    fun e m' => m'.Confined p q ∧ e.Confined p

section

variable {α β : Type} {p : Address → Prop} {q : Session → Prop} {good : α → Prop}
  {good' : β → Prop}

namespace RunM.Yields

theorem pure {a : α} (ha : good a) : RunM.Yields q good (Pure.pure a) :=
  fun _ h => ⟨h, ha⟩

theorem bind {x : RunM α} {f : α → RunM β} (hx : RunM.Yields q good x)
    (hf : ∀ a, good a → RunM.Yields q good' (f a)) : RunM.Yields q good' (x >>= f) :=
  fun s h => Ensures.bind ((hx s h).mono (fun a s' ha => hf a ha.2 s' ha.1) fun _ _ h => h)

theorem get {f : Session → RunM β} (hf : ∀ s, q s → RunM.Yields q good' (f s)) :
    RunM.Yields q good' (get >>= f) :=
  fun s h => hf s h s h

theorem throw {stop : Stop} : RunM.Yields q good (MonadExcept.throw stop : RunM α) :=
  fun _ h => h

theorem placed {x : RunM Value} (hx : RunM.Yields q (Value.Within p) x) (inline : Bool) :
    RunM.Yields q (Value.Within p) (Transfer.placed inline <$> x) := by
  rw [map_eq_pure_bind]
  refine hx.bind fun v hv => pure ?_
  cases inline with
  | true => exact hv.unboxed
  | false => exact hv

end RunM.Yields

namespace EvalM.Yields

theorem pure {a : α} (ha : good a) : EvalM.Yields p q good (Pure.pure a) :=
  fun _ h => ⟨h, ha⟩

theorem throw {e : Exit} (he : e.Confined p) :
    EvalM.Yields p q good (MonadExcept.throw e : EvalM α) :=
  fun _ h => ⟨h, he⟩

theorem bind {x : EvalM α} {f : α → EvalM β} (hx : EvalM.Yields p q good x)
    (hf : ∀ a, good a → EvalM.Yields p q good' (f a)) : EvalM.Yields p q good' (x >>= f) :=
  fun m h => Ensures.bind ((hx m h).mono (fun a m' ha => hf a ha.2 m' ha.1) fun _ _ h => h)

theorem ite {c : Prop} [Decidable c] {x y : EvalM α} (hx : EvalM.Yields p q good x)
    (hy : EvalM.Yields p q good y) : EvalM.Yields p q good (if c then x else y) := by
  split
  · exact hx
  · exact hy

theorem run {x : RunM α} (hx : RunM.Yields q good x) : EvalM.Yields p q good (EvalM.run x) := by
  intro m h
  have hx := hx m.session h.session
  unfold Ensures EvalM.run at *
  cases hrun : x m.session with
  | ok a s =>
    rw [hrun] at hx
    exact ⟨⟨hx.1, h.locals⟩, hx.2⟩
  | error stop s =>
    rw [hrun] at hx
    exact ⟨⟨hx, h.locals⟩, trivial⟩

theorem note (event : LocalEvent) : EvalM.Yields p q (fun _ => True) (EvalM.note event) :=
  fun _ h => ⟨⟨h.session, h.locals⟩, trivial⟩

theorem load (id : LocalId) : EvalM.Yields p q (Value.Within p) (EvalM.load id) := by
  intro m h
  refine ⟨h, ?_⟩
  cases hv : m.locals[id.index]? with
  | none => exact .null
  | some v => exact h.locals v (List.mem_of_getElem? hv)

theorem store {id : LocalId} {v : Value} (hv : v.Within p) :
    EvalM.Yields p q (fun _ => True) (EvalM.store id v) := by
  refine fun m h => ⟨⟨h.session, fun w hw => ?_⟩, trivial⟩
  rcases List.mem_or_eq_of_mem_set hw with hw | rfl
  · exact h.locals w hw
  · exact hv

/-- What the heap shows is taken from a session with the property. -/
theorem heap : EvalM.Yields p q (fun heap => ∃ s, q s ∧ s.heap = heap) EvalM.heap :=
  fun m h => ⟨h, m.session, h.session, rfl⟩

end EvalM.Yields

/-! ## Runs of code and of collection mappers -/

/-- A property of sessions whose heaps are closed, which confined changes of the heap and calls of
converters keep, and finding and running other routines as well. -/
structure Session.Confines (p : Address → Prop) (q : Session → Prop) (invoke : Invoke)
    (frame : Frame) : Prop where
  closed : ∀ s, q s → Heap.Confined p s.heap s.heap
  new : ∀ s, q s → ∀ a, s.heap.size ≤ a.index → p a
  heap : ∀ s heap, q s → Heap.Confined p s.heap heap → q { s with heap := heap }
  calls : ∀ s calls, q s → q { s with calls := calls }
  source : frame.source.Within p
  destination : frame.destination.Within p
  state : frame.state.Within p
  linked : ∀ link (v d : Value), v.Within p → d.Within p → RunM.Yields q (Value.Within p) do
    let routine ← Session.resolve frame.linkage link
    invoke routine v d frame.state
  dynamic : ∀ source target (v d : Value), v.Within p → d.Within p →
    RunM.Yields q (Value.Within p) do
      let routine ← Session.resolveDynamic frame.linkage source target
      invoke routine v d frame.state

namespace Session.Confines

variable {invoke : Invoke} {frame : Frame} (h : Session.Confines p q invoke frame)

include h

theorem onHeap {f : Heap → α × Heap} (hf : ∀ s, q s → Heap.Confined p s.heap (f s.heap).2 ∧
    good (f s.heap).1) : RunM.Yields q good (RunM.onHeap f) :=
  fun s hs => ⟨h.heap s _ hs (hf s hs).1, (hf s hs).2⟩

theorem onHeapExcept {ε : Type} {wrap : ε → ConversionError} {f : Heap → Except ε α × Heap}
    (hf : ∀ s, q s → Heap.Confined p s.heap (f s.heap).2 ∧
      ∀ a, (f s.heap).1 = .ok a → good a) : RunM.Yields q good (RunM.onHeapExcept wrap f) := by
  intro s hs
  have hf := hf s hs
  unfold Ensures RunM.onHeapExcept
  rcases hfs : f s.heap with ⟨e | a, heap⟩
  · rw [hfs] at hf
    exact h.heap s heap hs hf.1
  · rw [hfs] at hf
    exact ⟨h.heap s heap hs hf.1, hf.2 a rfl⟩

theorem callConverter {c : Registered} (hc : c.converter.Confined p) {v : Value}
    (hv : v.Within p) :
    RunM.Yields q (Value.Within p) (Session.callConverter c v frame.state) := by
  have hcall : RunM.Yields q (fun _ => True)
      (modify fun s => { s with calls := s.converterCall c v frame.state :: s.calls }) :=
    fun s hs => ⟨h.calls s _ hs, trivial⟩
  exact hcall.bind fun _ _ => h.onHeapExcept fun s hs =>
    hc s.heap v frame.state (h.new s hs) (h.closed s hs) hv h.state

theorem convert (v : Value) (target : Primitive) : RunM.Yields q (Value.Within p)
    (RunM.onHeapExcept .primitive (Heap.convert v target)) := by
  refine h.onHeapExcept fun s hs => ?_
  obtain ⟨⟨n, hn⟩, hok⟩ := Heap.convert_spec v target s.heap
  rw [hn]
  refine ⟨(h.closed s hs).tokens n, fun w hw => ?_⟩
  rcases hok w hw with rfl | hprimitive
  · exact .null
  · exact hprimitive.within

theorem box {v : Value} (hv : v.Within p) :
    RunM.Yields q (Value.Within p) (RunM.onHeap (Heap.box v)) := by
  refine h.onHeap fun s hs => ?_
  obtain ⟨n, hn⟩ := Heap.exists_tokens_box v s.heap
  rw [hn]
  exact ⟨(h.closed s hs).tokens n, Heap.within_box hv s.heap⟩

theorem instantiate {template : Template} (ht : ∀ v ∈ template.values, v.Within p) :
    RunM.Yields q (Value.Within p) (RunM.onHeap template.instantiate) := by
  refine h.onHeap fun s hs => ?_
  unfold Template.values at ht
  unfold Template.instantiate
  cases hinitial : template.initial with
  | zero value =>
    rw [hinitial] at ht
    exact ⟨h.closed s hs, ht value (List.mem_singleton_self _)⟩
  | object fields =>
    rw [hinitial] at ht
    exact (h.closed s hs).alloc (h.new s hs) ht
  | seq => exact (h.closed s hs).alloc (h.new s hs) fun _ hw => nomatch hw
  | absent => exact ⟨h.closed s hs, .null⟩

theorem writeMember {record v : Value} (hrecord : record.Within p) (hv : v.Within p)
    (member : Nat) :
    RunM.Yields q (Value.Within p) (RunM.onHeap (Heap.writeMember record member v)) :=
  h.onHeap fun s hs => ⟨(h.closed s hs).writeMember hrecord hv member,
    Heap.within_writeMember hv hrecord⟩

mutual

/-- By the expression : code that is confined answers values from within, and stores no others. -/
theorem eval : ∀ code : Code, code.Confined p →
    EvalM.Yields p q (Value.Within p) (code.eval invoke frame)
  | .argument a, _ => by
    simp only [Code.eval]
    cases a with
    | source => exact .pure h.source
    | destination => exact .pure h.destination
    | state => exact .pure h.state
  | .null, _ => by
    simp only [Code.eval]
    exact .pure .null
  | .readLocal id, _ => by
    simp only [Code.eval]
    exact .bind (.note _) fun _ _ => .load id
  | .declareLocal id zero, hc => by
    simp only [Code.eval]
    exact .bind (.note _) fun _ _ => .bind (.store hc) fun _ _ => .pure .null
  | .newInstance template, hc => by
    simp only [Code.eval]
    exact .run (h.instantiate hc)
  | .writeLocal _ value, hc => by
    simp only [Code.eval]
    exact .bind (eval value hc) fun _ hv => .bind (.note _) fun _ _ =>
      .bind (.store hv) fun _ _ => .pure .null
  | .box value, hc => by
    simp only [Code.eval]
    exact .bind (eval value hc) fun _ hv => .run (h.box hv)
  | .unbox value, hc => by
    simp only [Code.eval]
    exact .bind (eval value hc) fun _ hv => .pure hv.unboxed
  | .returns value, hc => by
    simp only [Code.eval]
    exact .bind (eval value hc) fun _ hv => .throw hv
  | .sequence children, hc => by
    simp only [Code.eval]
    exact evalAll .null .null children hc
  | .invokeLinked link value destination, hc => by
    simp only [Code.eval]
    refine .bind (eval value hc.1) fun v hv => .ite (.bind (.note _) fun _ _ => .pure .null) ?_
    exact .bind (eval destination hc.2) fun d hd => .run (h.linked link v d hv hd)
  | .invokeDynamic target value destination, hc => by
    simp only [Code.eval]
    refine .bind (eval value hc.1) fun v hv => .bind .heap fun heap _ => ?_
    split
    · exact .bind (.note _) fun _ _ => .pure .null
    · exact .bind (eval destination hc.2) fun d hd => .run (h.dynamic _ _ v d hv hd)
  | .readMember object _ _, hc => by
    simp only [Code.eval]
    refine .bind (eval object hc) fun v hv => .bind .heap fun heap hheap => ?_
    obtain ⟨s, hs, rfl⟩ := hheap
    split
    · exact .pure .null
    · exact .ite (.pure (Heap.within_member (h.closed s hs).parts hv)) (.throw trivial)
  | .writeMember _ member value, hc => by
    simp only [Code.eval]
    refine .bind (eval value hc) fun v hv => .bind (.note _) fun _ _ =>
      .bind (.load _) fun record hrecord => ?_
    exact .bind (.run (h.writeMember hrecord hv member)) fun _ hw =>
      .bind (.store hw) fun _ _ => .pure .null
  | .coalesce value fallback, hc => by
    simp only [Code.eval]
    exact .bind (eval value hc.1) fun _ hv => .ite (eval fallback hc.2) (.pure hv)
  | .ifNotNull test body, hc => by
    simp only [Code.eval]
    exact .bind (eval test hc.1) fun _ _ => .ite (.pure .null) (eval body hc.2)
  | .convert target value, hc => by
    simp only [Code.eval]
    exact .bind (eval value hc) fun v _ => .run (h.convert v target)
  | .custom converter value, hc => by
    simp only [Code.eval]
    exact .bind (eval value hc.2) fun v hv => .ite (.pure .null) (.run (h.callConverter hc.1 hv))

theorem evalAll (last : Value) (hlast : last.Within p) :
    ∀ codes : List Code, Code.ConfinedAll p codes →
      EvalM.Yields p q (Value.Within p) (Code.evalAll invoke frame last codes)
  | [], _ => by
    simp only [Code.evalAll]
    exact .pure hlast
  | code :: codes, hc => by
    simp only [Code.evalAll]
    exact .bind (eval code hc.1) fun v hv => evalAll v hv codes hc.2

end

theorem runProgram {program : ReadyProgram} (hc : program.code.Confined p) :
    RunM.Yields q (Value.Within p) (program.run invoke frame) := by
  intro s hs
  have hstart : (program.start s).Confined p q := by
    refine ⟨hs, fun v hv => ?_⟩
    obtain rfl := List.eq_of_mem_replicate hv
    exact .null
  have heval := h.eval program.code hc (program.start s) hstart
  unfold Ensures ReadyProgram.run at *
  cases hrun : program.code.eval invoke frame (program.start s) with
  | ok v m =>
    rw [hrun] at heval
    exact ⟨heval.1.session, heval.2⟩
  | error e m =>
    rw [hrun] at heval
    cases e with
    | returned v => exact ⟨heval.1.session, heval.2⟩
    | stopped stop => exact heval.1.session

theorem readMember {v : Value} (hv : v.Within p) (shape : ShapeId) (member : Nat) :
    RunM.Yields q (Value.Within p) (RunM.readMember v shape member) := by
  refine .get fun s hs => ?_
  split
  · exact .pure .null
  · split
    · exact .pure (Heap.within_member (h.closed s hs).parts hv)
    · exact .throw

section

variable {value current : RunM Value} (hvalue : RunM.Yields q (Value.Within p) value)
  (hcurrent : RunM.Yields q (Value.Within p) current)

include hvalue hcurrent

theorem byLink (link : Link) :
    RunM.Yields q (Value.Within p) (Transfer.byLink invoke frame link value current) := by
  refine hvalue.bind fun v hv => ?_
  split
  · exact .pure .null
  · exact hcurrent.bind fun d hd => h.linked link v d hv hd

theorem byShape (target : Option ShapeId) :
    RunM.Yields q (Value.Within p) (Transfer.byShape invoke frame target value current) := by
  refine hvalue.bind fun v hv => .get fun s _ => ?_
  split
  · exact .pure .null
  · exact hcurrent.bind fun d hd => h.dynamic _ _ v d hv hd

theorem transfer {t : Transfer} (ht : t.Confined p) :
    RunM.Yields q (Value.Within p) (t.run invoke frame value current) := by
  have hreused (reuse : Bool) :
      RunM.Yields q (Value.Within p) (Transfer.reused reuse current) := by
    unfold Transfer.reused
    split
    · exact hcurrent
    · exact .pure .null
  cases t with
  | same => exact hvalue
  | convert target => exact hvalue.bind fun v _ => h.convert v target
  | custom c =>
    refine hvalue.bind fun v hv => ?_
    split
    · exact .pure .null
    · exact h.callConverter ht hv
  | linked link reuse inline => exact (h.byLink hvalue (hreused reuse) link).placed inline
  | dynamic target reuse inline => exact (h.byShape hvalue (hreused reuse) target).placed inline

end

variable (mapper : CollectionMapper)

theorem mapElement {element : Value} (he : element.Within p) :
    RunM.Yields q (Value.Within p) (mapper.mapElement invoke frame element) := by
  rw [CollectionMapper.mapElement_eq]
  refine h.transfer (.pure he) (.pure .null) ?_
  unfold CollectionMapper.transfer
  split <;> trivial

theorem mapElements {elements : List Value} (hes : ∀ e ∈ elements, e.Within p) :
    RunM.Yields q (fun ws => ∀ w ∈ ws, w.Within p)
      (mapper.mapElements invoke frame elements) := by
  unfold CollectionMapper.mapElements
  induction elements with
  | nil => exact .pure fun _ hw => nomatch hw
  | cons element elements ih =>
    rw [List.mapM_cons]
    refine .bind (h.mapElement mapper (hes _ List.mem_cons_self)) fun w hw => ?_
    refine .bind (ih fun e he => hes e (List.mem_cons_of_mem _ he)) fun ws hws => ?_
    exact .pure (List.forall_mem_cons.mpr ⟨hw, hws⟩)

theorem appendElements {a : Address} (ha : p a) {elements : List Value}
    (hes : ∀ e ∈ elements, e.Within p) :
    RunM.Yields q (fun _ => True) (mapper.appendElements invoke frame a elements) := by
  unfold CollectionMapper.appendElements
  induction elements with
  | nil => exact .pure trivial
  | cons element elements ih =>
    have happend : RunM.Yields q (fun _ => True) (mapper.appendElement invoke frame a element) :=
      .bind (h.mapElement mapper (hes _ List.mem_cons_self)) fun w hw s hs =>
        ⟨h.heap s _ hs ((h.closed s hs).push ha hw), trivial⟩
    exact happend.bind fun _ _ => ih fun e he => hes e (List.mem_cons_of_mem _ he)

theorem withArguments {source destination : Value} (hsource : source.Within p)
    (hdestination : destination.Within p) :
    Session.Confines p q invoke { frame with source := source, destination := destination } :=
  ⟨h.closed, h.new, h.heap, h.calls, hsource, hdestination, h.state, h.linked, h.dynamic⟩

theorem sourceElements : RunM.Yields q (fun es => ∀ e ∈ es, e.Within p)
    (CollectionMapper.sourceElements frame.source) :=
  .get fun s hs => .pure ((h.closed s hs).elements h.source)

theorem newContainer? (hc : ∀ program, mapper.construct = some program → program.code.Confined p) :
    RunM.Yields q (fun a? => ∀ a, a? = some a → p a) (mapper.newContainer? invoke frame) := by
  unfold CollectionMapper.newContainer?
  split
  · exact .pure fun _ ha => nomatch ha
  · rename_i program hprogram
    refine .bind ((h.withArguments .null .null).runProgram (hc program hprogram))
      fun made hmade => ?_
    refine .get fun s _ => ?_
    split
    · refine .pure fun a ha => ?_
      cases ha
      exact Value.Within.ref.mp hmade
    · exact .pure fun _ ha => nomatch ha

theorem container? (hc : ∀ program, mapper.construct = some program → program.code.Confined p) :
    RunM.Yields q (fun a? => ∀ a, a? = some a → p a) (mapper.container? invoke frame) := by
  unfold CollectionMapper.container?
  refine .get fun s _ => ?_
  split
  · rename_i a ha
    refine .pure fun b hb => ?_
    cases hb
    obtain ⟨hdestination, -⟩ := CollectionMapper.sequenceAt?_eq_some_iff.mp ha
    exact Value.Within.ref.mp (hdestination ▸ h.destination)
  · exact h.newContainer? mapper hc

theorem runMapper (hc : ∀ program, mapper.construct = some program → program.code.Confined p) :
    RunM.Yields q (Value.Within p) (mapper.run invoke frame) := by
  have hnew : RunM.Yields q (Value.Within p) (do
      RunM.onHeap (Heap.alloc (.seq mapper.target (← mapper.mapElements invoke frame
        (← CollectionMapper.sourceElements frame.source)).toArray))) :=
    .bind h.sourceElements fun elements hes => .bind (h.mapElements mapper hes) fun ws hws =>
      h.onHeap fun s hs => (h.closed s hs).alloc (h.new s hs) hws
  unfold CollectionMapper.run
  split
  · exact .pure .null
  · split
    · exact hnew
    · exact hnew
    · exact hnew
    · refine .bind (h.container? mapper hc) fun a? ha => ?_
      split
      · exact .pure .null
      · rename_i a
        refine .bind h.sourceElements fun elements hes => ?_
        exact .bind (h.appendElements mapper (ha a rfl) hes) fun _ _ =>
          .pure (Value.Within.ref.mpr (ha a rfl))

end Session.Confines

end

/-! ## Routines -/

/-- The code of the body is confined. -/
def Body.Confined (p : Address → Prop) : Body → Prop
  | .program made => made.code.Confined p
  | .collection mapper => ∀ made, mapper.construct = some made → made.code.Confined p
  | .unresolved => True

theorem Mapping.confined_of_body {p : Address → Prop} {pool : Pool} {mapping : Mapping}
    {source target : ShapeId} {body : Body} (hmapping : mapping.Confined p)
    (h : mapping.body pool source target = .ok body) : body.Confined p := by
  obtain ⟨plan, -, h⟩ := Except.bind_eq_ok_iff.mp h
  obtain ⟨⟨body', n⟩, hready, heq⟩ := Except.map_eq_ok_iff.mp h
  obtain rfl : body' = body := heq
  cases plan with
  | unresolved =>
    cases hready
    trivial
  | program program =>
    obtain ⟨made, _, hmade, hready⟩ := ReadyM.bind_eq_ok_iff.mp hready
    cases hready
    exact program.confined_of_ready hmapping hmade
  | collection plan =>
    obtain ⟨mapper, _, hmapper, hready⟩ := ReadyM.bind_eq_ok_iff.mp hready
    cases hready
    obtain ⟨construct, _, hconstruct, hmapper⟩ := ReadyM.bind_eq_ok_iff.mp hmapper
    obtain ⟨path, _, -, hmapper⟩ := ReadyM.bind_eq_ok_iff.mp hmapper
    cases hmapper
    rintro made rfl
    cases hprogram : plan.construct with
    | none =>
      rw [hprogram] at hconstruct
      cases hconstruct
    | some program =>
      rw [hprogram] at hconstruct
      obtain ⟨⟨made, _⟩, hmade, heq⟩ := Except.bind_eq_ok_iff.mp hconstruct
      cases heq
      exact program.confined_of_ready hmapping hmade

/-- Routines stay in the set, given values that refer to places of it. -/
def Invoke.Confined (p : Address → Prop) (mappings : Mapping → Prop) (invoke : Invoke) : Prop :=
  ∀ (owner : Nat → Linkage) (s : Session) (r : Routine), s.Owned mappings owner → s.Knows r →
    (∀ a, s.heap.size ≤ a.index → p a) → Heap.Confined p s.heap s.heap →
    ∀ source destination state : Value, source.Within p → destination.Within p →
      state.Within p → Ensures (invoke r source destination state) s
        (fun w s' => Heap.Confined p s.heap s'.heap ∧ w.Within p)
        fun _ s' => Heap.Confined p s.heap s'.heap

section

variable {p : Address → Prop} {mappings : Mapping → Prop} {owner : Nat → Linkage}
  {s s₀ : Session} {invoke : Invoke}

/-- To find a routine and to run it. -/
theorem Invoke.Confined.find_bind (hconfined : invoke.Confined p mappings)
    (hevolving : invoke.Evolving mappings) (hnew : ∀ a, s₀.heap.size ≤ a.index → p a)
    (h : s₀.Evolves mappings owner s) (hheap : Heap.Confined p s₀.heap s.heap)
    {owner₁ : Nat → Linkage} (hagree : ∀ i < s₀.linkages, owner₁ i = owner i) {linkage : Linkage}
    {source target : ShapeId} {x : RunM Routine}
    (hx : Ensures x s (s.Finds mappings owner₁ linkage source target)
      fun _ s' => s.Evolves mappings owner₁ s' ∧ s'.heap = s.heap) {v d state : Value}
    (hv : v.Within p) (hd : d.Within p) (hstate : state.Within p) :
    Ensures (x >>= fun routine => invoke routine v d state) s
      (fun w s' => (s₀.Evolves mappings owner s' ∧ Heap.Confined p s₀.heap s'.heap) ∧ w.Within p)
      fun _ s' => s₀.Evolves mappings owner s' ∧ Heap.Confined p s₀.heap s'.heap := by
  have hrun : Ensures (x >>= fun routine => invoke routine v d state) s
      (fun w s' => Heap.Confined p s₀.heap s'.heap ∧ w.Within p)
      fun _ s' => Heap.Confined p s₀.heap s'.heap := by
    refine Ensures.bind (hx.mono ?_ fun _ _ h' => h'.2 ▸ hheap)
    intro r s₁ hfinds
    obtain ⟨owner₂, -, howned⟩ := hfinds.evolves.owned
    have hheap₁ : Heap.Confined p s₀.heap s₁.heap := hfinds.heap ▸ hheap
    refine (hconfined owner₂ s₁ r howned hfinds.knows
      (fun a ha => hnew a (Nat.le_trans hheap₁.size ha)) hheap₁.self v d state hv hd hstate).mono
        ?_ ?_
    · exact fun w s' hw => ⟨hheap₁.trans hw.1, hw.2⟩
    · exact fun _ s' hs' => hheap₁.trans hs'
  refine ((h.find_bind hevolving hagree hx v d state).and hrun).mono ?_ fun _ _ h => h
  exact fun w s' hw => ⟨⟨hw.1, hw.2.1⟩, hw.2.2⟩

/-- Staying in a closed set of places is kept by code with a linkage that the session owns. -/
theorem Session.Owned.confines (hconfined : invoke.Confined p mappings)
    (hevolving : invoke.Evolving mappings) (hs : s₀.Owned mappings owner) {frame : Frame}
    (hlt : frame.linkage.id.index < s₀.linkages)
    (howner : owner frame.linkage.id.index = frame.linkage)
    (hnew : ∀ a, s₀.heap.size ≤ a.index → p a) (hsource : frame.source.Within p)
    (hdestination : frame.destination.Within p) (hstate : frame.state.Within p) :
    Session.Confines p (fun s => s₀.Evolves mappings owner s ∧ Heap.Confined p s₀.heap s.heap)
      invoke frame where
  closed := fun _ h => h.2.self
  new := fun _ h a ha => hnew a (Nat.le_trans h.2.size ha)
  heap := fun _ heap h hheap => ⟨h.1.withHeap heap, h.2.trans hheap⟩
  calls := fun _ calls h => ⟨h.1.withCalls calls, h.2⟩
  source := hsource
  destination := hdestination
  state := hstate
  linked := by
    rintro link v d hv hd s ⟨hevolves, hheap⟩
    obtain ⟨owner₁, hagree, howned⟩ := hevolves.owned
    exact hconfined.find_bind hevolving hnew hevolves hheap hagree
      (Session.resolve_finds howned link (Nat.lt_of_lt_of_le hlt hevolves.linkages)
        ((hagree _ hlt).trans howner)) hv hd hstate
  dynamic := by
    rintro source target v d hv hd s ⟨hevolves, hheap⟩
    obtain ⟨owner₁, hagree, howned⟩ := hevolves.owned
    exact hconfined.find_bind hevolving hnew hevolves hheap hagree
      (Session.resolveDynamic_finds howned source target (howner ▸ hs.linkage _ hlt)) hv hd hstate

/-- Runs stay in a closed set of places, whatever their depth. -/
theorem Routine.run_confined (hmappings : ∀ m, mappings m → m.Confined p) (depth : Nat) :
    Invoke.Confined p mappings (Routine.run depth) := by
  induction depth with
  | zero => exact fun _ _ _ _ _ _ hclosed _ _ _ _ _ _ => hclosed
  | succ depth ih =>
    intro owner s r hs hknows hnew hclosed source destination state hsource hdestination hstate
    obtain ⟨hlt, howner, hmapping, hmade⟩ := hs.madeIn hknows
    have hbody : r.body.Confined p := Mapping.confined_of_body (hmappings _ hmapping) hmade.body
    have hstart : s.Evolves mappings owner s ∧ Heap.Confined p s.heap s.heap :=
      ⟨.refl hs, hclosed⟩
    have hconfines : Session.Confines p
        (fun s' => s.Evolves mappings owner s' ∧ Heap.Confined p s.heap s'.heap)
        (Routine.run depth) ⟨source, destination, state, r.linkage⟩ :=
      hs.confines ih (run_evolving depth) hlt howner hnew hsource hdestination hstate
    unfold Routine.run
    dsimp only
    cases hr : r.body with
    | program program =>
      rw [hr] at hbody
      exact (hconfines.runProgram hbody s hstart).mono (fun w s' h => ⟨h.1.2, h.2⟩) fun _ _ h => h.2
    | collection mapper =>
      rw [hr] at hbody
      exact (hconfines.runMapper mapper hbody s hstart).mono (fun w s' h => ⟨h.1.2, h.2⟩)
        fun _ _ h => h.2
    | unresolved => exact ⟨hclosed, .null⟩

end

end Reshape
