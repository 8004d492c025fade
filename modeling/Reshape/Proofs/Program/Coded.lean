import Reshape.Proofs.Outcome

/-!
# Code of expressions

`Expr.ready` makes code of an expression and numbers the links on its way. `Expr.Coded` says what
that code is, whatever the numbers : the tree of the expression, with what the pool knows of its
shapes and the converters of the mapping filled in, and with a link where the source shape of a
conversion is known. What is made ready is coded so (`Expr.coded_of_ready`), and a property of code
is shown along `Expr.Coded`, without a look at how the code was made.
-/

namespace Reshape

mutual

/-- The code is that of the expression, with links of any numbers. -/
inductive Expr.Coded (pool : Pool) (mapping : Mapping) : Expr → Code → Prop
  | argument {a} : Coded pool mapping (.argument a) (.argument a)
  | readLocal {id} : Coded pool mapping (.readLocal id) (.readLocal id)
  | writeLocal {id value code} (hvalue : Coded pool mapping value code) :
    Coded pool mapping (.writeLocal id value) (.writeLocal id code)
  | declareLocal {id shape zero} (hzero : pool.zeroValue shape = .ok zero) :
    Coded pool mapping (.declareLocal id shape) (.declareLocal id zero)
  | newInstance {shape template} (htemplate : Template.ofShape pool shape = .ok template) :
    Coded pool mapping (.newInstance shape) (.newInstance template)
  | box {value code} (hvalue : Coded pool mapping value code) :
    Coded pool mapping (.box value) (.box code)
  | unbox {value code} (hvalue : Coded pool mapping value code) :
    Coded pool mapping (.unbox value) (.unbox code)
  | returns {value code} (hvalue : Coded pool mapping value code) :
    Coded pool mapping (.returns value) (.returns code)
  | sequence {children codes} (h : CodedAll pool mapping children codes) :
    Coded pool mapping (.sequence children) (.sequence codes)
  | invokeLinked {source target number value destination code code'}
    (hsource : source ≠ ShapeId.any) (hvalue : Coded pool mapping value code)
    (hdestination : Coded pool mapping destination code') :
    Coded pool mapping (.invoke source target value destination)
      (.invokeLinked ⟨number, source, target⟩ code code')
  | invokeDynamic {target value destination code code'} (hvalue : Coded pool mapping value code)
    (hdestination : Coded pool mapping destination code') :
    Coded pool mapping (.invoke ShapeId.any target value destination)
      (.invokeDynamic target code code')
  | null : Coded pool mapping .null .null
  | readMember {object shape member code} (hobject : Coded pool mapping object code) :
    Coded pool mapping (.readMember object shape member) (.readMember code shape member)
  | writeMember {id member value code} (hvalue : Coded pool mapping value code) :
    Coded pool mapping (.writeMember id member value) (.writeMember id member code)
  | coalesce {value fallback code code'} (hvalue : Coded pool mapping value code)
    (hfallback : Coded pool mapping fallback code') :
    Coded pool mapping (.coalesce value fallback) (.coalesce code code')
  | ifNotNull {test body code code'} (htest : Coded pool mapping test code)
    (hbody : Coded pool mapping body code') :
    Coded pool mapping (.ifNotNull test body) (.ifNotNull code code')
  | convert {a b value code} (hvalue : Coded pool mapping value code) :
    Coded pool mapping (.convert (.primitive a b) value) (.convert b code)
  | custom {id c value code} (hc : mapping.converter? id = some c)
    (hvalue : Coded pool mapping value code) :
    Coded pool mapping (.convert (.custom id) value) (.custom c code)

/-- The codes are those of the expressions, in order. -/
inductive Expr.CodedAll (pool : Pool) (mapping : Mapping) : List Expr → List Code → Prop
  | nil : CodedAll pool mapping [] []
  | cons {e es code codes} (h : Expr.Coded pool mapping e code)
    (hs : CodedAll pool mapping es codes) : CodedAll pool mapping (e :: es) (code :: codes)

end

variable {pool : Pool} {mapping : Mapping}

/-- What makes a routine's call of a conversion : a link, or the shape of the value. -/
theorem Expr.Coded.of_invoke {source target : ShapeId} {value destination : Expr}
    {code code' made : Code} {n n' : Nat} (hvalue : value.Coded pool mapping code)
    (hdestination : destination.Coded pool mapping code')
    (h : (if source = ShapeId.any then return .invokeDynamic target code code'
      else return .invokeLinked (← newLink source target) code code' : ReadyM Code) n =
        .ok (made, n')) :
    (Expr.invoke source target value destination).Coded pool mapping made := by
  split at h
  · rename_i hsource
    cases h
    exact hsource ▸ .invokeDynamic hvalue hdestination
  · rename_i hsource
    cases h
    exact .invokeLinked hsource hvalue hdestination

mutual

/-- What an expression is made into is its code. -/
theorem Expr.coded_of_ready : ∀ (e : Expr) {n n' : Nat} {code : Code},
    e.ready pool mapping n = .ok (code, n') → e.Coded pool mapping code
  | .argument _, _, _, _, h => by
    cases h
    exact .argument
  | .readLocal _, _, _, _, h => by
    cases h
    exact .readLocal
  | .null, _, _, _, h => by
    cases h
    exact .null
  | .declareLocal _ _, _, _, _, h => by
    obtain ⟨_, _, hlift, h⟩ := ReadyM.bind_eq_ok_iff.mp h
    obtain ⟨_, hzero, heq⟩ := ReadyM.ofPool_eq_ok_iff.mp hlift
    cases heq
    cases h
    exact .declareLocal hzero
  | .newInstance _, _, _, _, h => by
    obtain ⟨_, _, hlift, h⟩ := ReadyM.bind_eq_ok_iff.mp h
    obtain ⟨_, htemplate, heq⟩ := ReadyM.ofPool_eq_ok_iff.mp hlift
    cases heq
    cases h
    exact .newInstance htemplate
  | .writeLocal _ value, _, _, _, h => by
    obtain ⟨_, _, hvalue, h⟩ := ReadyM.bind_eq_ok_iff.mp h
    cases h
    exact .writeLocal (value.coded_of_ready hvalue)
  | .box value, _, _, _, h => by
    obtain ⟨_, _, hvalue, h⟩ := ReadyM.bind_eq_ok_iff.mp h
    cases h
    exact .box (value.coded_of_ready hvalue)
  | .unbox value, _, _, _, h => by
    obtain ⟨_, _, hvalue, h⟩ := ReadyM.bind_eq_ok_iff.mp h
    cases h
    exact .unbox (value.coded_of_ready hvalue)
  | .returns value, _, _, _, h => by
    obtain ⟨_, _, hvalue, h⟩ := ReadyM.bind_eq_ok_iff.mp h
    cases h
    exact .returns (value.coded_of_ready hvalue)
  | .readMember object _ _, _, _, _, h => by
    obtain ⟨_, _, hobject, h⟩ := ReadyM.bind_eq_ok_iff.mp h
    cases h
    exact .readMember (object.coded_of_ready hobject)
  | .writeMember _ _ value, _, _, _, h => by
    obtain ⟨_, _, hvalue, h⟩ := ReadyM.bind_eq_ok_iff.mp h
    cases h
    exact .writeMember (value.coded_of_ready hvalue)
  | .convert (.primitive _ _) value, _, _, _, h => by
    obtain ⟨_, _, hvalue, h⟩ := ReadyM.bind_eq_ok_iff.mp h
    cases h
    exact .convert (value.coded_of_ready hvalue)
  | .convert (.custom id) value, _, _, _, h => by
    obtain ⟨_, _, hvalue, h⟩ := ReadyM.bind_eq_ok_iff.mp h
    cases hc : mapping.converter? id with
    | none =>
      rw [hc] at h
      cases h
    | some c =>
      rw [hc] at h
      cases h
      exact .custom hc (value.coded_of_ready hvalue)
  | .sequence children, _, _, _, h => by
    obtain ⟨_, _, hchildren, h⟩ := ReadyM.bind_eq_ok_iff.mp h
    cases h
    exact .sequence (Expr.codedAll_of_readyAll children hchildren)
  | .invoke _ _ value destination, _, _, _, h => by
    obtain ⟨_, _, hvalue, h⟩ := ReadyM.bind_eq_ok_iff.mp h
    obtain ⟨_, _, hdestination, h⟩ := ReadyM.bind_eq_ok_iff.mp h
    exact .of_invoke (value.coded_of_ready hvalue) (destination.coded_of_ready hdestination) h
  | .coalesce value fallback, _, _, _, h => by
    obtain ⟨_, _, hvalue, h⟩ := ReadyM.bind_eq_ok_iff.mp h
    obtain ⟨_, _, hfallback, h⟩ := ReadyM.bind_eq_ok_iff.mp h
    cases h
    exact .coalesce (value.coded_of_ready hvalue) (fallback.coded_of_ready hfallback)
  | .ifNotNull test body, _, _, _, h => by
    obtain ⟨_, _, htest, h⟩ := ReadyM.bind_eq_ok_iff.mp h
    obtain ⟨_, _, hbody, h⟩ := ReadyM.bind_eq_ok_iff.mp h
    cases h
    exact .ifNotNull (test.coded_of_ready htest) (body.coded_of_ready hbody)

theorem Expr.codedAll_of_readyAll : ∀ (es : List Expr) {n n' : Nat} {codes : List Code},
    Expr.readyAll pool mapping es n = .ok (codes, n') → Expr.CodedAll pool mapping es codes
  | [], _, _, _, h => by
    cases h
    exact .nil
  | e :: es, _, _, _, h => by
    obtain ⟨_, _, he, h⟩ := ReadyM.bind_eq_ok_iff.mp h
    obtain ⟨_, _, hes, h⟩ := ReadyM.bind_eq_ok_iff.mp h
    cases h
    exact .cons (e.coded_of_ready he) (Expr.codedAll_of_readyAll es hes)

end

/-- A program is made ready just where it is valid and its body can be made code of. -/
theorem Program.ready_eq_ok_iff {program : Program} {n : Nat} {r : ReadyProgram × Nat} :
    program.ready pool mapping n = .ok r ↔ program.validate = .ok () ∧
      ∃ code n', program.body.ready pool mapping n = .ok (code, n') ∧
        r = (⟨code, program.locals.length⟩, n') := by
  unfold Program.ready
  cases program.validate with
  | error defect => exact iff_of_false nofun nofun
  | ok _ =>
    constructor
    · intro h
      obtain ⟨code, n', hcode, h⟩ := ReadyM.bind_eq_ok_iff.mp h
      exact ⟨rfl, code, n', hcode, ReadyM.pure_eq_ok_iff.mp h⟩
    · rintro ⟨-, code, n', hcode, rfl⟩
      exact ReadyM.bind_eq_ok_iff.mpr ⟨code, n', hcode, rfl⟩

/-- What is ready to run is the code of a valid program, and has its locals. -/
theorem Program.coded_of_ready {program : Program} {n n' : Nat} {ready : ReadyProgram}
    (h : program.ready pool mapping n = .ok (ready, n')) :
    program.validate = .ok () ∧ program.body.Coded pool mapping ready.code ∧
      ready.localCount = program.locals.length := by
  obtain ⟨hvalid, code, n₁, hcode, heq⟩ := ready_eq_ok_iff.mp h
  cases heq
  exact ⟨hvalid, program.body.coded_of_ready hcode, rfl⟩

end Reshape
