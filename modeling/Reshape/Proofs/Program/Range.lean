import Reshape.Proofs.Pool.Zero
import Reshape.Proofs.Program.Fault
import Reshape.Proofs.Program.Scope

/-!
# Locals within range

The code of a program names the locals that the expressions of the program name
(`Expr.Coded.locals_eq`). Where the program is valid these are in its table, those of branches and
of code that is never run among them. So no run of the code looks or writes beyond its locals
(`Code.staysWithin`) : none is named in the log, and with more locals behind its own the run would
go the same way, and leave those as they are.

So a program that is made ready is safe to run. `Program.ready_safe` puts that together with what
getting ready may fail with.
-/

namespace Reshape

/-! ## Locals of code -/

mutual

/-- The locals that code reads, writes or declares, wherever in it. -/
def Code.locals : Code → List LocalId
  | .readLocal id | .declareLocal id _ => [id]
  | .argument _ | .newInstance _ | .null => []
  | .writeLocal id value | .writeMember id _ value => id :: value.locals
  | .box value | .unbox value | .returns value | .readMember value _ _ | .convert _ value
  | .custom _ value => value.locals
  | .sequence children => Code.localsAll children
  | .invokeLinked _ value destination | .invokeDynamic _ value destination =>
    value.locals ++ destination.locals
  | .coalesce first branch | .ifNotNull first branch => first.locals ++ branch.locals

/-- The locals of codes. -/
def Code.localsAll : List Code → List LocalId
  | [] => []
  | code :: codes => code.locals ++ Code.localsAll codes

end

section

variable {pool : Pool} {mapping : Mapping}

mutual

/-- The locals of the code are those of the expression. -/
theorem Expr.Coded.locals_eq : ∀ {e : Expr} {code : Code}, e.Coded pool mapping code →
    code.locals = e.nodes.filterMap Expr.local?
  | .argument _, _, .argument | .null, _, .null | .readLocal _, _, .readLocal
  | .declareLocal _ _, _, .declareLocal _ | .newInstance _, _, .newInstance _ => rfl
  | .writeLocal id _, _, .writeLocal hvalue | .writeMember id _ _, _, .writeMember hvalue =>
    congrArg (id :: ·) hvalue.locals_eq
  | .box _, _, .box hvalue | .unbox _, _, .unbox hvalue | .returns _, _, .returns hvalue
  | .readMember _ _ _, _, .readMember hvalue | .convert (.primitive _ _) _, _, .convert hvalue
  | .convert (.custom _) _, _, .custom _ hvalue => hvalue.locals_eq
  | .sequence _, _, .sequence hs => hs.localsAll_eq
  | .invoke _ _ _ _, _, .invokeLinked _ hvalue hdestination
  | .invoke _ _ _ _, _, .invokeDynamic hvalue hdestination =>
    (congrArg₂ (· ++ ·) hvalue.locals_eq hdestination.locals_eq).trans List.filterMap_append.symm
  | .coalesce _ _, _, .coalesce hfirst hbranch | .ifNotNull _ _, _, .ifNotNull hfirst hbranch =>
    (congrArg₂ (· ++ ·) hfirst.locals_eq hbranch.locals_eq).trans List.filterMap_append.symm

theorem Expr.CodedAll.localsAll_eq : ∀ {es : List Expr} {codes : List Code},
    Expr.CodedAll pool mapping es codes →
      Code.localsAll codes = (Expr.nodesAll es).filterMap Expr.local?
  | [], _, .nil => rfl
  | _ :: _, _, .cons h hs => by
    rw [Code.localsAll, Expr.nodesAll, List.filterMap_append, h.locals_eq, hs.localsAll_eq]

end

end

/-! ## Runs within the locals -/

/-- The local that is read, written or declared. -/
def LocalEvent.local? : LocalEvent → Option LocalId
  | .declared id | .read id | .written id | .memberWritten id => some id
  | .passedOver _ => none

/-- The machine has `n` locals, and nothing was done to any but these. -/
structure Machine.Within (m : Machine) (n : Nat) : Prop where
  length : m.locals.length = n
  accessed : ∀ event ∈ m.events, ∀ id, event.local? = some id → id.index < n

/-- The machine with more locals behind its own. -/
def Machine.widen (beyond : List Value) (m : Machine) : Machine :=
  { m with locals := m.locals ++ beyond }

/-- The outcome with more locals behind those of the machine. -/
def EvalM.widen {α : Type} (beyond : List Value) :
    EStateM.Result Exit Machine α → EStateM.Result Exit Machine α
  | .ok a m => .ok a (m.widen beyond)
  | .error e m => .error e (m.widen beyond)

/-- From a machine with `n` locals the computation keeps to them. With more behind them its outcome
would be the same, and those as they were. -/
def StaysWithin {α : Type} (n : Nat) (x : EvalM α) : Prop :=
  ∀ m : Machine, m.Within n →
    Ensures x m (fun _ m' => m'.Within n) (fun _ m' => m'.Within n) ∧
      ∀ beyond, x (m.widen beyond) = EvalM.widen beyond (x m)

namespace StaysWithin

variable {α β : Type} {n : Nat}

theorem pure {a : α} : StaysWithin n (Pure.pure a) :=
  fun _ hm => ⟨.pure hm, fun _ => rfl⟩

theorem throw {e : Exit} : StaysWithin n (MonadExcept.throw e : EvalM α) :=
  fun _ hm => ⟨.throw hm, fun _ => rfl⟩

theorem bind {x : EvalM α} {f : α → EvalM β} (hx : StaysWithin n x)
    (hf : ∀ a, StaysWithin n (f a)) : StaysWithin n (x >>= f) := by
  intro m hm
  obtain ⟨hwithin, hwiden⟩ := hx m hm
  refine ⟨.bind (hwithin.mono (fun a m₁ hm₁ => (hf a m₁ hm₁).1) fun _ _ h => h), fun beyond => ?_⟩
  have hbeyond := hwiden beyond
  cases h : x m with
  | ok a m₁ =>
    rw [h] at hbeyond
    rw [bind_of_eq_ok h, bind_of_eq_ok hbeyond]
    exact (hf a m₁ (hwithin.of_run h)).2 beyond
  | error e m₁ =>
    rw [h] at hbeyond
    rw [bind_of_eq_error h, bind_of_eq_error hbeyond]
    rfl

theorem ite {p : Prop} [Decidable p] {x y : EvalM α} (hx : StaysWithin n x)
    (hy : StaysWithin n y) : StaysWithin n (if p then x else y) := by
  split
  · exact hx
  · exact hy

/-- The session is of no concern to the locals. -/
theorem run {x : RunM α} : StaysWithin n (EvalM.run x) := by
  intro m hm
  constructor
  · unfold Ensures EvalM.run
    cases x m.session <;> exact ⟨hm.length, hm.accessed⟩
  · intro beyond
    unfold EvalM.run
    rw [Machine.widen]
    cases x m.session <;> rfl

theorem heap : StaysWithin n EvalM.heap :=
  fun _ hm => ⟨hm, fun _ => rfl⟩

theorem note {event : LocalEvent} (h : ∀ id, event.local? = some id → id.index < n) :
    StaysWithin n (EvalM.note event) :=
  fun _ hm => ⟨⟨hm.length, List.forall_mem_cons.mpr ⟨h, hm.accessed⟩⟩, fun _ => rfl⟩

/-- To note what is done to a local within range. -/
theorem access {event : LocalEvent} {id : LocalId} (h : event.local? = some id)
    (hid : id.index < n) : StaysWithin n (EvalM.note event) :=
  note fun _ h' => Option.some.inj (h.symm.trans h') ▸ hid

theorem load {id : LocalId} (h : id.index < n) : StaysWithin n (EvalM.load id) := by
  intro m hm
  refine ⟨hm, fun beyond => ?_⟩
  change EStateM.Result.ok (((m.locals ++ beyond)[id.index]?).getD .null) _ = _
  rw [List.getElem?_append_left (hm.length ▸ h)]
  rfl

theorem store {id : LocalId} {v : Value} (h : id.index < n) : StaysWithin n (EvalM.store id v) := by
  intro m hm
  refine ⟨⟨List.length_set.trans hm.length, hm.accessed⟩, fun beyond => ?_⟩
  change EStateM.Result.ok () { m with locals := (m.locals ++ beyond).set id.index v } = _
  rw [List.set_append_left _ _ (hm.length ▸ h)]
  rfl

end StaysWithin

mutual

/-- Code stays within the locals it names, whatever its branches do and however it ends. -/
theorem Code.staysWithin (invoke : Invoke) (frame : Frame) {n : Nat} :
    ∀ (code : Code), (∀ id ∈ code.locals, id.index < n) → StaysWithin n (code.eval invoke frame)
  | .argument _, _ | .null, _ => .pure
  | .readLocal id, h => by
    have hid := List.forall_mem_singleton.mp h
    simp only [Code.eval]
    exact .bind (.access rfl hid) fun _ => .load hid
  | .declareLocal id _, h => by
    have hid := List.forall_mem_singleton.mp h
    simp only [Code.eval]
    exact .bind (.access rfl hid) fun _ => .bind (.store hid) fun _ => .pure
  | .newInstance _, _ => by
    simp only [Code.eval]
    exact .run
  | .writeLocal _ value, h => by
    obtain ⟨hid, h⟩ := List.forall_mem_cons.mp h
    simp only [Code.eval]
    exact .bind (value.staysWithin invoke frame h) fun _ =>
      .bind (.access rfl hid) fun _ => .bind (.store hid) fun _ => .pure
  | .writeMember _ _ value, h => by
    obtain ⟨hid, h⟩ := List.forall_mem_cons.mp h
    simp only [Code.eval]
    exact .bind (value.staysWithin invoke frame h) fun _ => .bind (.access rfl hid) fun _ =>
      .bind (.load hid) fun _ => .bind .run fun _ => .bind (.store hid) fun _ => .pure
  | .box value, h | .convert _ value, h => by
    simp only [Code.eval]
    exact .bind (value.staysWithin invoke frame h) fun _ => .run
  | .unbox value, h => by
    simp only [Code.eval]
    exact .bind (value.staysWithin invoke frame h) fun _ => .pure
  | .returns value, h => by
    simp only [Code.eval]
    exact .bind (value.staysWithin invoke frame h) fun _ => .throw
  | .custom _ value, h => by
    simp only [Code.eval]
    exact .bind (value.staysWithin invoke frame h) fun _ => .ite .pure .run
  | .readMember object _ _, h => by
    simp only [Code.eval]
    refine .bind (object.staysWithin invoke frame h) fun v => .bind .heap fun heap => ?_
    split
    · exact .pure
    · exact .ite .pure .throw
  | .sequence children, h => by
    simp only [Code.eval]
    exact Code.staysWithin_all invoke frame .null children h
  | .invokeLinked _ value destination, h => by
    obtain ⟨hvalue, hdestination⟩ := List.forall_mem_append.mp h
    simp only [Code.eval]
    refine .bind (value.staysWithin invoke frame hvalue) fun v => .ite ?_ ?_
    · exact .bind (.note nofun) fun _ => .pure
    · exact .bind (destination.staysWithin invoke frame hdestination) fun _ => .run
  | .invokeDynamic _ value destination, h => by
    obtain ⟨hvalue, hdestination⟩ := List.forall_mem_append.mp h
    simp only [Code.eval]
    refine .bind (value.staysWithin invoke frame hvalue) fun v => .bind .heap fun heap => ?_
    split
    · exact .bind (.note nofun) fun _ => .pure
    · exact .bind (destination.staysWithin invoke frame hdestination) fun _ => .run
  | .coalesce value fallback, h => by
    obtain ⟨hvalue, hfallback⟩ := List.forall_mem_append.mp h
    simp only [Code.eval]
    exact .bind (value.staysWithin invoke frame hvalue) fun _ =>
      .ite (fallback.staysWithin invoke frame hfallback) .pure
  | .ifNotNull test body, h => by
    obtain ⟨htest, hbody⟩ := List.forall_mem_append.mp h
    simp only [Code.eval]
    exact .bind (test.staysWithin invoke frame htest) fun _ =>
      .ite .pure (body.staysWithin invoke frame hbody)

theorem Code.staysWithin_all (invoke : Invoke) (frame : Frame) {n : Nat} (last : Value) :
    ∀ (codes : List Code), (∀ id ∈ Code.localsAll codes, id.index < n) →
      StaysWithin n (Code.evalAll invoke frame last codes)
  | [], _ => .pure
  | code :: codes, h => by
    obtain ⟨hcode, hcodes⟩ := List.forall_mem_append.mp h
    simp only [Code.evalAll]
    exact .bind (code.staysWithin invoke frame hcode) fun v =>
      Code.staysWithin_all invoke frame v codes hcodes

end

/-! ## Programs that are safe to run -/

namespace Program

variable {program : Program} {pool : Pool} {mapping : Mapping} {n n' : Nat} {ready : ReadyProgram}

/-- All locals that the code of a program names are in the table. -/
theorem lt_localCount_of_ready (h : program.ready pool mapping n = .ok (ready, n')) :
    ∀ id ∈ ready.code.locals, id.index < ready.localCount := by
  obtain ⟨hvalid, hcoded, hcount⟩ := coded_of_ready h
  obtain ⟨known, hdeclaring⟩ := declaring_of_validate hvalid
  intro id hid
  rw [hcoded.locals_eq] at hid
  obtain ⟨x, hx, hlocal⟩ := List.mem_filterMap.mp hid
  exact hcount ▸ (hdeclaring.uses x hx id hlocal).1

end Program

theorem ReadyProgram.within_start (ready : ReadyProgram) (s : Session) :
    (ready.start s).Within ready.localCount :=
  ⟨List.length_replicate, nofun⟩

/-- Making a program ready is fatal just if its locals are not declared as they should be, or if
they are and one of its expressions names a converter that the mapping does not have, where the
expressions are met operands first, from left to right, and the pool has told the shapes of all that
were met before. Otherwise there is an answer : the program in its ready form, or the first error of
the pool, which is not that of a descent without end.

And whatever is made ready keeps to its locals. Its code names no others, even where it is never
run. No run of it, on any source, destination and state, reads or writes any others, and with any
values behind its locals it would go the same way and leave them as they are. -/
theorem Program.ready_safe {pool : Pool} (hpool : WellFounded pool.Contains) (mapping : Mapping)
    (program : Program) (n : Nat) :
    ((∃ e, program.ready pool mapping n = .error e ∧ e.Fatal) ↔
      (∃ defect, program.validate = .error defect) ∨
      program.validate = .ok () ∧ ∃ before id value after,
        program.body.inOrder = before ++ .convert (.custom id) value :: after ∧
        mapping.converters.length ≤ id.index ∧ ∀ x ∈ before, x.shapeError? pool = none) ∧
    (∀ e, program.ready pool mapping n = .error e → ¬ e.Fatal →
      ∃ before x after error, program.body.inOrder = before ++ x :: after ∧
        x.shapeError? pool = some error ∧ (∀ y ∈ before, y.fault? pool mapping = none) ∧
        e = .shape error ∧ error.Plain) ∧
    ∀ ready n', program.ready pool mapping n = .ok (ready, n') →
      ready.localCount = program.locals.length ∧
      (∀ id ∈ ready.code.locals, id.index < ready.localCount) ∧
      ∀ invoke frame s,
        (∀ event ∈ ready.log invoke frame s, ∀ id, event.local? = some id →
          id.index < ready.localCount) ∧
        ∀ beyond, ready.code.eval invoke frame ((ready.start s).widen beyond) =
          EvalM.widen beyond (ready.code.eval invoke frame (ready.start s)) := by
  refine ⟨ready_fatal_iff, fun e h hfatal => ?_, fun ready n' h => ?_⟩
  · obtain ⟨before, x, after, error, hbody, herror, hbefore, he⟩ := shape_of_ready_eq_error h hfatal
    have hplain := Expr.plain_of_shapeError? hpool herror
    exact ⟨before, x, after, error, hbody, herror, hbefore, he, hplain⟩
  · have hlocals := lt_localCount_of_ready h
    refine ⟨(coded_of_ready h).2.2, hlocals, fun invoke frame s => ?_⟩
    obtain ⟨hwithin, hwiden⟩ :=
      ready.code.staysWithin invoke frame hlocals _ (ready.within_start s)
    exact ⟨hwithin.after.accessed, hwiden⟩

/-- The program that starts its only local with the zero value of the shape, writes the source to
its first member unless that is null, and returns the result. -/
def Program.startingFrom (shape : ShapeId) (result : Expr) : Program where
  locals := [shape]
  body := .sequence [
    .declareLocal ⟨0⟩ shape,
    .ifNotNull (.argument .source) (.writeMember ⟨0⟩ 0 (.argument .source)),
    .returns result]

/-- For a label a missing converter is fatal, and without it the program keeps to its local. For a
line the pool fails before the converter is met. -/
theorem Program.ready_safe_sketch :
    WellFounded Pool.sketch.Contains ∧
      (∃ e, (startingFrom ⟨10⟩ (.convert (.custom ⟨0⟩) .null)).ready Pool.sketch Mapping.initial 0 =
        .error e ∧ e.Fatal) ∧
      (startingFrom ⟨9⟩ (.convert (.custom ⟨0⟩) .null)).ready Pool.sketch Mapping.initial 0 =
        .error (.shape (.undefinedShape ⟨7⟩ "Span")) ∧
      ∃ ready, (startingFrom ⟨10⟩ (.readLocal ⟨0⟩)).ready Pool.sketch Mapping.initial 0 =
        .ok (ready, 0) ∧ ready.localCount = 1 ∧
        ∀ invoke frame s, ∀ event ∈ ready.log invoke frame s, ∀ id, event.local? = some id →
          id.index < 1 := by
  have hpool := Pool.wellFounded_contains Pool.not_transGen_sketch
  obtain ⟨hfatal, -, -⟩ := ready_safe hpool Mapping.initial
    (startingFrom ⟨10⟩ (.convert (.custom ⟨0⟩) .null)) 0
  obtain ⟨-, -, hready⟩ := ready_safe hpool Mapping.initial (startingFrom ⟨10⟩ (.readLocal ⟨0⟩)) 0
  refine ⟨hpool, hfatal.mpr (.inr ⟨rfl, ?_⟩), rfl, _, rfl, rfl, fun invoke frame s => ?_⟩
  · exact ⟨[.declareLocal ⟨0⟩ ⟨10⟩, .argument .source, .argument .source,
      .writeMember ⟨0⟩ 0 (.argument .source),
      .ifNotNull (.argument .source) (.writeMember ⟨0⟩ 0 (.argument .source)), .null],
      ⟨0⟩, .null, _, rfl, Nat.le_refl 0, by decide⟩
  · obtain ⟨-, -, hruns⟩ := hready _ 0 rfl
    exact (hruns invoke frame s).1

end Reshape
