import Reshape.Proofs.Program.Coded
import Reshape.Proofs.Program.Outline
import Reshape.Proofs.Session.Reachable

/-!
# Null sources

A routine answers null to null, whatever it has been made for, and does nothing for it : no member
is read, no routine is looked for, no converter is called, nothing is made and nothing is written.
So it needs no registry either (`Session.Reachable.null_transparent`).

Programs do so because their bodies pass null on (`Expr.PassesNull`) : what is evaluated first is
the source, and what else there is to evaluate is behind a look at its value. That goes from the
expression over to its code, and from the code to the run. Collections look at the source
themselves.
-/

namespace Reshape

/-! ## Plans -/

/-- Where the source is null the value is null, and nothing else is evaluated. -/
inductive Expr.PassesNull : Expr → Prop
  | source : (Expr.argument .source).PassesNull
  | returns {value : Expr} (h : value.PassesNull) : (Expr.returns value).PassesNull
  | convert {value : Expr} (conversion : Conversion) (h : value.PassesNull) :
    (Expr.convert conversion value).PassesNull
  | invoke {value : Expr} (source target : ShapeId) (destination : Expr) (h : value.PassesNull) :
    (Expr.invoke source target value destination).PassesNull
  | ifNotNull {test : Expr} (body : Expr) (h : test.PassesNull) :
    (Expr.ifNotNull test body).PassesNull

/-- A program of the plan passes null on. -/
def RoutinePlan.PassesNull : RoutinePlan → Prop
  | program p => p.body.PassesNull
  | collection _ | unresolved => True

/-- What converts a value passes null on if that does. -/
theorem Expr.Converts.passesNull {mapping : Mapping} {value current e : Expr}
    (h : Expr.Converts mapping value current e) (hvalue : value.PassesNull) : e.PassesNull := by
  cases h with
  | same => exact hvalue
  | primitive _ _ | custom _ => exact .convert _ hvalue
  | made _ _ | reused _ _ => exact .invoke _ _ _ hvalue

namespace Mapping

variable {pool : Pool} {mapping : Mapping} {source target : ShapeId}

theorem recordProgram_passesNull {sourceShape targetShape : Descriptor} {program : Program}
    (h : recordProgram pool mapping source sourceShape target targetShape = .ok program) :
    program.body.PassesNull := by
  obtain ⟨writes, -, hprogram⟩ := Except.bind_eq_ok_iff.mp h
  cases hprogram
  exact .ifNotNull _ .source

theorem plan_passesNull {plan : RoutinePlan} (h : mapping.plan pool source target = .ok plan) :
    plan.PassesNull := by
  cases outlined_of_plan h with
  | expr he => exact .returns (he.passesNull .source)
  | record hrecord => exact recordProgram_passesNull hrecord
  | collection _ | unresolved => exact True.intro

end Mapping

/-! ## Code -/

/-- The same of code. -/
inductive Code.PassesNull : Code → Prop
  | source : (Code.argument .source).PassesNull
  | returns {value : Code} (h : value.PassesNull) : (Code.returns value).PassesNull
  | convert {value : Code} (target : Primitive) (h : value.PassesNull) :
    (Code.convert target value).PassesNull
  | custom {value : Code} (converter : Registered) (h : value.PassesNull) :
    (Code.custom converter value).PassesNull
  | invokeLinked {value : Code} (link : Link) (destination : Code) (h : value.PassesNull) :
    (Code.invokeLinked link value destination).PassesNull
  | invokeDynamic {value : Code} (target : ShapeId) (destination : Code) (h : value.PassesNull) :
    (Code.invokeDynamic target value destination).PassesNull
  | ifNotNull {test : Code} (body : Code) (h : test.PassesNull) :
    (Code.ifNotNull test body).PassesNull

/-- The body answers null for null. Only programs could do otherwise. -/
def Body.PassesNull : Body → Prop
  | program p => p.code.PassesNull
  | collection _ | unresolved => True

section

variable {pool : Pool} {mapping : Mapping}

theorem Expr.PassesNull.coded {e : Expr} {code : Code} (h : e.PassesNull)
    (hcoded : e.Coded pool mapping code) : code.PassesNull := by
  induction h generalizing code with
  | source =>
    cases hcoded
    exact .source
  | returns _ ih =>
    cases hcoded with
    | returns hvalue => exact .returns (ih hvalue)
  | convert conversion _ ih =>
    cases hcoded with
    | convert hvalue => exact .convert _ (ih hvalue)
    | custom _ hvalue => exact .custom _ (ih hvalue)
  | invoke source target destination _ ih =>
    cases hcoded with
    | invokeLinked _ hvalue _ => exact .invokeLinked _ _ (ih hvalue)
    | invokeDynamic hvalue _ => exact .invokeDynamic _ _ (ih hvalue)
  | ifNotNull body _ ih =>
    cases hcoded with
    | ifNotNull htest _ => exact .ifNotNull _ (ih htest)

theorem Program.ready_passesNull {program : Program} (h : program.body.PassesNull) {n : Nat}
    {r : ReadyProgram × Nat} (hr : program.ready pool mapping n = .ok r) : r.1.code.PassesNull :=
  h.coded (coded_of_ready hr).2.1

theorem Mapping.body_passesNull {source target : ShapeId} {body : Body}
    (h : mapping.body pool source target = .ok body) : body.PassesNull := by
  obtain ⟨plan, hplan, h⟩ := Except.bind_eq_ok_iff.mp h
  obtain ⟨r, hready, rfl⟩ := Except.map_eq_ok_iff.mp h
  have hpasses := Mapping.plan_passesNull hplan
  cases plan with
  | program program =>
    obtain ⟨ready, n, hprogram, hr⟩ := ReadyM.bind_eq_ok_iff.mp hready
    cases hr
    exact Program.ready_passesNull hpasses hprogram
  | collection plan =>
    obtain ⟨mapper, n, -, hr⟩ := ReadyM.bind_eq_ok_iff.mp hready
    cases hr
    exact True.intro
  | unresolved =>
    cases hready
    exact True.intro

end

/-! ## Runs -/

section

variable {invoke : Invoke} {frame : Frame}

/-- Nothing has been done but to look at values, and the value is null. -/
theorem Code.PassesNull.eval {code : Code} (h : code.PassesNull) (hsource : frame.source = .null)
    (m : Machine) :
    Ensures (code.eval invoke frame) m (fun v m' => v = .null ∧ m'.session = m.session)
      fun e m' => e = .returned .null ∧ m'.session = m.session := by
  induction h with
  | source =>
    rw [Code.eval]
    exact .pure ⟨hsource, rfl⟩
  | returns _ ih =>
    rw [Code.eval]
    refine .bind (ih.mono ?_ fun _ _ h => h)
    rintro v m' ⟨rfl, hm'⟩
    exact .throw ⟨rfl, hm'⟩
  | convert target _ ih =>
    rw [Code.eval]
    refine .bind (ih.mono ?_ fun _ _ h => h)
    rintro v m' ⟨rfl, hm'⟩
    exact .of_ok rfl ⟨rfl, hm'⟩
  | custom _ _ ih | ifNotNull _ _ ih =>
    rw [Code.eval]
    refine .bind (ih.mono ?_ fun _ _ h => h)
    rintro v m' ⟨rfl, hm'⟩
    exact .pure ⟨rfl, hm'⟩
  | invokeLinked _ _ _ ih | invokeDynamic _ _ _ ih =>
    rw [Code.eval]
    refine .bind (ih.mono ?_ fun _ _ h => h)
    rintro v m' ⟨rfl, hm'⟩
    exact .of_ok rfl ⟨rfl, hm'⟩

theorem ReadyProgram.run_null {program : ReadyProgram} (h : program.code.PassesNull)
    (hsource : frame.source = .null) (s : Session) : program.run invoke frame s = .ok .null s := by
  have heval : Ensures (program.code.eval invoke frame) (program.start s) _ _ := h.eval hsource _
  unfold Ensures at heval
  unfold ReadyProgram.run
  cases hcode : program.code.eval invoke frame (program.start s) with
  | ok v m =>
    rw [hcode] at heval
    obtain ⟨rfl, hm⟩ := heval
    exact congrArg _ hm
  | error e m =>
    rw [hcode] at heval
    obtain ⟨rfl, hm⟩ := heval
    exact congrArg _ hm

theorem CollectionMapper.run_null (mapper : CollectionMapper) (hsource : frame.source = .null)
    (s : Session) : mapper.run invoke frame s = .ok .null s := by
  unfold CollectionMapper.run
  rw [hsource]
  rfl

end

/-- A routine whose body passes null on answers null to null and changes nothing. -/
theorem Routine.run_null {r : Routine} (h : r.body.PassesNull) (depth : Nat)
    (destination state : Value) (s : Session) :
    r.run (depth + 1) .null destination state s = .ok .null s := by
  unfold Routine.run
  cases hbody : r.body with
  | program program =>
    rw [hbody] at h
    exact ReadyProgram.run_null h rfl s
  | collection mapper => exact mapper.run_null rfl s
  | unresolved => rfl

/-- A routine that is kept or compiled has been made for some shapes. -/
theorem Session.Owned.exists_body {mappings : Mapping → Prop} {owner : Nat → Linkage}
    {s s' : Session} (h : s.Owned mappings owner) {registry : RegistryId} {source target : ShapeId}
    {mapping : Mapping} {r : Routine}
    (hr : getOrCompile registry source target mapping s = .ok r s') :
    ∃ (m : Mapping) (a b : ShapeId), m.body s.pool a b = .ok r.body := by
  let key : RoutineKey := ⟨source, target, mapping.id⟩
  cases hcached : s.cached? registry key with
  | some known =>
    cases (getOrCompile_of_cached hcached).symm.trans hr
    obtain ⟨-, -, -, hmade⟩ := h.madeIn (h.registry_of_cached? hcached).1
    exact ⟨_, _, _, hmade.body⟩
  | none =>
    rw [getOrCompile_of_not_cached hcached] at hr
    cases hbody : mapping.body s.pool source target with
    | error e =>
      have hkeyed : mapping.body s.pool key.source key.target = .error e := hbody
      cases (compileRoutine_eq_error hkeyed).symm.trans hr
    | ok body =>
      have hkeyed : mapping.body s.pool key.source key.target = .ok body := hbody
      obtain ⟨routine, rfl, hcompile⟩ := compileRoutine_eq_ok registry hkeyed
      cases hcompile.symm.trans hr
      exact ⟨mapping, source, target, hbody⟩

/-- Every routine that can be had answers null to null, whatever it is given besides, and leaves the
session as it is : no converter is called, no instance is changed or made, no link is resolved, and
no registry compiles or keeps anything. The session may be any, also one in which the registry is
gone. The same goes for runs within other runs, which have less depth left. -/
theorem Session.Reachable.null_transparent {mappings : Mapping → Prop} {s s' : Session}
    (h : s.Reachable mappings) {registry : RegistryId} {source target : ShapeId} {mapping : Mapping}
    {r : Routine} (hr : Session.getOrCompile registry source target mapping s = .ok r s')
    (later : Session) (state : Value) :
    (∀ destination, convert r .null destination state later = .ok .null later) ∧
      ∀ depth destination, r.run (depth + 1) .null destination state later = .ok .null later := by
  obtain ⟨owner, howned⟩ := h.coherent
  obtain ⟨m, a, b, hbody⟩ := howned.exists_body hr
  have hrun := Routine.run_null (Mapping.body_passesNull hbody)
  exact ⟨fun destination => hrun 4294967295 (destination.getD .null) state later,
    fun depth destination => hrun depth destination state later⟩

/-! ## A converter that is not called -/

namespace Uncalled

def message : Descriptor :=
  .ofRecord "Message" [⟨"count", ShapeId.str, {}⟩, ⟨"rest", ShapeId.any, {}⟩]

def tally : Descriptor :=
  .ofRecord "Tally" [⟨"count", ShapeId.int, {}⟩, ⟨"rest", ShapeId.any, {}⟩]

def operations : List Pool.Operation := [.register message, .register tally]

/-- It fails at every call. -/
def mapping : Mapping where
  id := ⟨"uncalled"⟩
  converters :=
    [⟨ShapeId.str, ShapeId.int, ⟨"fails", fun _ _ heap => (.error (.custom "called"), heap)⟩⟩]

/-- A tally to convert into. -/
def heap : Heap where
  instances := #[.object ⟨8⟩ #[.int 1, .null]]

def session : Session :=
  .compiling operations heap mapping ⟨7⟩ ⟨8⟩

def routine : Routine :=
  Session.compiled operations heap mapping ⟨7⟩ ⟨8⟩

/-- The session once the registry is gone. -/
def later : Session :=
  session.dropRegistry ⟨0⟩

theorem getOrCompile_eq :
    Session.getOrCompile ⟨0⟩ ⟨7⟩ ⟨8⟩ mapping session = .ok routine session :=
  Session.getOrCompile_of_cached
    (Session.cached?_compiling operations heap mapping ⟨7⟩ ⟨8⟩ (by decide +kernel))

end Uncalled

theorem Session.Reachable.null_transparent_uncalled :
    Uncalled.session.Reachable (· = Uncalled.mapping) ∧
      Session.getOrCompile ⟨0⟩ ⟨7⟩ ⟨8⟩ Uncalled.mapping Uncalled.session =
        .ok Uncalled.routine Uncalled.session ∧
      Uncalled.later.registryAlive ⟨0⟩ = false ∧
      (∀ destination, convert Uncalled.routine .null destination (.int 7) Uncalled.later =
        .ok .null Uncalled.later) ∧
      ∀ depth destination, Uncalled.routine.run (depth + 1) .null destination (.int 7)
        Uncalled.later = .ok .null Uncalled.later := by
  have hreachable := reachable_compiling Uncalled.operations Uncalled.heap Uncalled.mapping ⟨7⟩ ⟨8⟩
  have hr := Uncalled.getOrCompile_eq
  exact ⟨hreachable, hr, by decide +kernel,
    Session.Reachable.null_transparent hreachable hr Uncalled.later (.int 7)⟩

end Reshape
